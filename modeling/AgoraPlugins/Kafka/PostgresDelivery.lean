import AgoraPlugins.Kafka.Runtime
import AgoraPlugins.Machine
import AgoraPlugins.Postgres.Durability

/-!
# From Kafka to PostgreSQL

A `KafkaPostgresRuntime` delivers the records of a Kafka source to a
`PostgresSink`. An offset should be acknowledged only when the row of its record
is in the table or in the DLQ: whatever is acknowledged is not fetched again.

With `flush` the sink is flushed before the acknowledgement. Without it the
runtime looks for a `wait_for_pending_acks`, which this sink has not, and
acknowledges a record whose row is still in the buffer – unless the row filled
the buffer, when the write has flushed it. The source acknowledges as well, when
it is asked for the next record before the last one was.

A crash is the end of a run. It may come at any await point: a run whose script
ends in a cancellation there is a run up to it.
-/

open Machine Effect

namespace PostgresSink

variable {T ρ : Type}

/-- A sink's settings for records that carry a number, which their rows keep. -/
def Config.tagged (cfg : Config T ρ) : Config (ℕ × T) (ℕ × ρ) where
  rowMapper record := (cfg.rowMapper record.2).map (Prod.mk record.1)
  batchSize := cfg.batchSize
  insertMode := cfg.insertMode
  policy := cfg.policy
  poisonSink := cfg.poisonSink
  normalizeRow row := (cfg.normalizeRow row.2).map (Prod.mk row.1)
  sqlstate := cfg.sqlstate
  batchSize_pos := cfg.batchSize_pos

variable (cfg : Config T ρ)

/-- **A PostgreSQL sink as a runtime sees it**: without `wait_for_pending_acks`
and without transactions. -/
def sinkMethods (retry : RetryAsync ρ) : SinkMethods (State ρ) T where
  write record := EStateM.adaptExcept Raised.toExc (write cfg retry record)
  flush := EStateM.adaptExcept Raised.toExc (flush cfg retry)

/-- **A record is durable**: a row of it is in the table or in the DLQ. -/
def State.Durable (s : State (ℕ × ρ)) (i : ℕ) : Prop :=
  (∃ row ∈ s.committed, row.1 = i) ∨ ∃ row ∈ s.routed, row.1 = i

instance (s : State (ℕ × ρ)) (i : ℕ) : Decidable (s.Durable i) :=
  inferInstanceAs (Decidable (_ ∨ _))

theorem Grows.durable {s t : State (ℕ × ρ)} (h : Grows s t) {i : ℕ} (hs : s.Durable i) :
    t.Durable i := by
  rcases hs with ⟨row, hrow, hi⟩ | ⟨row, hrow, hi⟩
  · exact .inl ⟨row, h.committed row hrow, hi⟩
  · exact .inr ⟨row, h.routed row hrow, hi⟩

/-- Nothing but the script has changed. -/
def SameRows (s t : State ρ) : Prop :=
  t.buffer = s.buffer ∧ t.committed = s.committed ∧ t.routed = s.routed

/-- The row of a numbered record has its number, and getting it is all that has
happened. -/
theorem ensures_alignRow_tagged (row : ℕ × ρ) (s : State (ℕ × ρ)) :
    Ensures (alignRow cfg.tagged row) s (fun r t => SameRows s t ∧ match r with
      | .ok row' => row'.1 = row.1
      | .error _ => True) := by
  unfold alignRow
  have htagged : cfg.tagged.policy = cfg.policy := rfl
  rw [htagged]
  cases cfg.policy with
  | strict => exact ⟨⟨rfl, rfl, rfl⟩, rfl⟩
  | alignToTarget =>
    rw [ensures_bind]
    refine ensures_await (fun script => ?_) (fun _ _ => ?_)
    swap
    · exact ⟨⟨rfl, rfl, rfl⟩, trivial⟩
    show Ensures (ofExcept _ ((cfg.normalizeRow row.2).map (Prod.mk row.1))) _ _
    cases cfg.normalizeRow row.2 with
    | error e => exact ⟨⟨rfl, rfl, rfl⟩, trivial⟩
    | ok row' => exact ⟨⟨rfl, rfl, rfl⟩, rfl⟩

variable (retry : RetryAsync (ℕ × ρ))

/-- **A write that returns**: the record is durable if its row filled the buffer;
otherwise the row is in the buffer and nothing else has changed. -/
theorem ensures_write_tagged (record : ℕ × T) (s : State (ℕ × ρ)) :
    Ensures (write cfg.tagged retry record) s (fun r t => match r with
      | .ok _ => (cfg.batchSize ≤ s.buffer.length + 1 → t.Durable record.1)
        ∧ (s.buffer.length + 1 < cfg.batchSize →
          (∃ row ∈ t.buffer, row.1 = record.1) ∧ t.committed = s.committed
            ∧ t.routed = s.routed)
      | .error _ => True) := by
  unfold write
  rw [ensures_bind]
  show Ensures (ofExcept Raised.other ((cfg.rowMapper record.2).map (Prod.mk record.1))) s _
  cases cfg.rowMapper record.2 with
  | error e => trivial
  | ok row =>
    rw [Except.map, ofExcept, ensures_pure]
    refine (ensures_alignRow_tagged cfg (record.1, row) s).bind (fun row' t hst => ?_)
      (fun _ _ _ => trivial)
    obtain ⟨⟨hbuffer, hcommitted, hrouted⟩, hrow⟩ := hst
    refine (exits_enqueueRow cfg.tagged retry row' t).mono (fun r u htu => ?_)
    cases r with
    | error _ => trivial
    | ok _ =>
      obtain ⟨hfull, hroom⟩ := htu
      rw [hbuffer] at hfull hroom
      refine ⟨fun h => .inl ⟨row', hfull h, hrow⟩, fun h => ?_⟩
      rw [hroom h]
      exact ⟨⟨row', List.mem_append_right _ (List.mem_singleton.2 rfl), hrow⟩,
        hcommitted, hrouted⟩

end PostgresSink

/-! ## Runs of a runtime -/

namespace KafkaPostgresRuntime

open PostgresSink KafkaSourceRuntime

variable {T U ρ : Type}

/-- **The settings of a runtime**, the source's and the sink's. -/
structure Settings (T U ρ : Type) where
  source : SourceConfig := {}
  groupId : String
  sink : Config U ρ
  retry : RetryAsync (ℕ × ρ)
  transform : T → Except Exc U
  decorate : U → Except Exc U

variable (cfg : Settings T U ρ)

/-- The runtime, on records that carry their number. -/
def Settings.runtime :
    KafkaSourceRuntime (PostgresSink.State (ℕ × ρ)) (ℕ × T) (ℕ × U) where
  source := cfg.source
  groupId := cfg.groupId
  sink := sinkMethods cfg.sink.tagged cfg.retry
  transform record := (cfg.transform record.2).map (Prod.mk record.1)
  decorate outbound := (cfg.decorate outbound.2).map (Prod.mk outbound.1)

/-- **A runtime between two calls**: source and sink, the record handed out last
with its number, how many there have been, and which are acknowledged. -/
structure Session (T ρ : Type) where
  delivering : Delivering (PostgresSink.State (ℕ × ρ)) := { sink := {} }
  record : Option (ℕ × T) := none
  handedOut : ℕ := 0
  acked : List ℕ := []

/-- What happens to a runtime, with the answers it meets. -/
inductive Event (T : Type) where
  /-- the stream is asked for the next record, and yields it -/
  | next (record : T) (tp : TopicPartition) (offset : ℤ) (replies : List Reply)
  | deliver (flush : Bool) (answers : List Answer) (replies : List Reply)
  | flush (answers : List Answer)
  | close (answers : List Answer)

/-- The session a computation leaves. -/
def Session.left (s : Session T ρ) (t : Delivering (PostgresSink.State (ℕ × ρ))) :
    Session T ρ :=
  { s with
    delivering := t
    acked := s.acked ++
      if t.acknowledged && !s.delivering.acknowledged then (s.record.map Prod.fst).toList
      else [] }

/-- The sink is to meet these answers. -/
def Session.meeting (s : Session T ρ) (answers : List Answer) :
    Delivering (PostgresSink.State (ℕ × ρ)) :=
  { s.delivering with sink := { s.delivering.sink with script := answers } }

/-- The stream is resumed: it acknowledges the record it had handed out, unless
that is done. -/
def passOn : DeliveryM (PostgresSink.State (ℕ × ρ)) PUnit := do
  match (← get).active with
  | none => pure ⟨⟩
  | some delivery => cfg.runtime.ack delivery

/-- A record is handed out. -/
def Session.handOut (s : Session T ρ) (record : T) (tp : TopicPartition) (offset : ℤ) :
    Session T ρ :=
  { s with
    delivering := { s.delivering with
      active := some (tp, offset)
      acknowledged := false
      cursor := s.delivering.cursor.rememberProcessedOffset tp offset }
    record := some (s.handedOut, record)
    handedOut := s.handedOut + 1 }

/-- The stream has ended. -/
def Session.ended (s : Session T ρ) : Session T ρ :=
  { s with
    delivering := { s.delivering with active := none, acknowledged := false }
    record := none }

/-- **One event.** -/
def step (s : Session T ρ) : Event T → Option (Session T ρ)
  | .next record tp offset replies =>
    match passOn cfg { s.delivering with script := replies } with
    | .ok _ t => some ((s.left t).handOut record tp offset)
    | .error _ t => some (s.left t).ended
  | .deliver flush answers replies =>
    s.record.map (fun record => s.left (finalState (cfg.runtime.deliver flush false record)
      { s.meeting answers with script := replies }))
  | .flush answers =>
    some (s.left (finalState (onSink cfg.runtime.sink.flush) (s.meeting answers)))
  | .close answers =>
    some (s.left (finalState
      (onSink (EStateM.adaptExcept Raised.toExc (close cfg.sink.tagged cfg.retry)))
      (s.meeting answers)))

/-- **What is acknowledged is durable.** -/
def Safe (s : Session T ρ) : Prop :=
  ∀ i ∈ s.acked, s.delivering.sink.Durable i

instance (s : Session T ρ) : Decidable (Safe s) :=
  inferInstanceAs (Decidable (∀ i ∈ s.acked, _))

/-- Whether writing a record raises before its row is in the buffer, or in
flushing it. -/
def failsToWrite (s : Session T ρ) (answers : List Answer) (record : ℕ × T) : Bool :=
  match cfg.runtime.outbound record with
  | .error _ => true
  | .ok outbound =>
    raises (cfg.runtime.sink.write outbound) (s.meeting answers).sink

/-- **The record is durable by the time it is acknowledged**: it is delivered
with a flush, or its row fills the buffer, or it is not acknowledged at all; and
the stream is resumed when that is so. -/
def InTime (s : Session T ρ) (e : Event T) : Prop :=
  ∀ record, s.record = some record → s.delivering.active ≠ none →
    s.delivering.acknowledged = true ∨ s.delivering.sink.Durable record.1
    ∨ match e with
      | .next _ _ _ _ => False
      | .deliver flush answers _ =>
        flush = true ∨ cfg.sink.batchSize ≤ s.delivering.sink.buffer.length + 1
          ∨ failsToWrite cfg s answers record = true
      | _ => True

/-! ## What a delivery does -/

variable {cfg}

/-- What the sink is given carries the number of the record. -/
theorem outbound_fst {record : ℕ × T} {outbound : ℕ × U}
    (h : cfg.runtime.outbound record = .ok outbound) : outbound.1 = record.1 := by
  unfold KafkaSourceRuntime.outbound Settings.runtime at h
  dsimp only at h
  cases htransform : cfg.transform record.2 with
  | error e =>
    rw [htransform] at h
    cases h
  | ok u =>
    rw [htransform] at h
    change (cfg.decorate u).map (Prod.mk record.1) = _ at h
    cases hdecorate : cfg.decorate u with
    | error e =>
      rw [hdecorate] at h
      cases h
    | ok v =>
      rw [hdecorate] at h
      obtain rfl : (record.1, v) = outbound := Except.ok.inj h
      rfl

/-- An acknowledgement leaves the sink alone, and its flag is set. -/
theorem ensures_ack (delivery : TopicPartition × ℤ)
    (s : Delivering (PostgresSink.State (ℕ × ρ))) :
    Ensures (cfg.runtime.ack delivery) s
      (fun _ t => t.sink = s.sink ∧ t.acknowledged = true) :=
  (cfg.runtime.ensures_ack delivery s).mono (fun _ _ h => ⟨h.1, h.2.1⟩)

/-- A method of the sink: only the sink has moved. -/
theorem ensures_onSink {m : SinkM (ℕ × ρ) PUnit}
    {Q : Except Exc PUnit → PostgresSink.State (ℕ × ρ) → Prop}
    {s : Delivering (PostgresSink.State (ℕ × ρ))}
    (h : Ensures m s.sink (fun r t => Q (r.mapError Raised.toExc) t)) :
    Ensures (onSink (EStateM.adaptExcept Raised.toExc m)) s
      (fun r t => Q r t.sink ∧ t.acknowledged = s.acknowledged ∧ t.active = s.active) := by
  unfold onSink
  rw [ensures_zoom, ensures_adaptExcept]
  exact h.mono (fun _ _ hq => ⟨hq, rfl, rfl⟩)

/-- What a delivery and every other call keep: the sink only grows. -/
def SinkGrows (s t : Delivering (PostgresSink.State (ℕ × ρ))) : Prop :=
  Grows s.sink t.sink

instance : IsPreorder (Delivering (PostgresSink.State (ℕ × ρ))) SinkGrows where
  refl s := refl_of Grows s.sink
  trans _ _ _ h h' := trans_of Grows h h'

theorem respects_onSink {m : SinkM (ℕ × ρ) PUnit} (hm : Respects Grows m) :
    Respects SinkGrows (onSink (EStateM.adaptExcept Raised.toExc m)) := by
  intro s
  unfold onSink
  rw [ensures_zoom, ensures_adaptExcept]
  exact hm s.sink

theorem respects_ack (delivery : TopicPartition × ℤ) :
    Respects SinkGrows (cfg.runtime.ack delivery) := by
  intro s
  refine (ensures_ack delivery s).mono (fun _ t h => ?_)
  unfold SinkGrows
  rw [h.1]
  exact refl_of Grows s.sink

theorem respects_passOn : Respects SinkGrows (passOn cfg) := by
  unfold passOn
  refine respects_get.bind (fun s => ?_)
  cases s.active with
  | none => exact respects_pure _
  | some delivery => exact respects_ack delivery

theorem respects_deliver (flush : Bool) (record : ℕ × T) :
    Respects SinkGrows (cfg.runtime.deliver flush false record) := by
  unfold deliver
  cases cfg.runtime.outbound record with
  | error e => exact respects_throw e
  | ok outbound =>
    refine respects_get.bind (fun s => ?_)
    cases s.active with
    | none => exact respects_throw _
    | some delivery =>
      refine (respects_onSink (grows_write cfg.sink.tagged cfg.retry outbound)).bind
        (fun _ => Respects.bind ?_ (fun _ => (respects_ack delivery).bind
          (fun _ => respects_pure _)))
      cases flush with
      | true => exact respects_onSink (grows_flush cfg.sink.tagged cfg.retry)
      | false => exact respects_pure _

/-- A write into a buffer with room leaves the table and the DLQ as they are. -/
theorem ensures_write_early {outbound : ℕ × U} {s : Delivering (PostgresSink.State (ℕ × ρ))}
    (hroom : s.sink.buffer.length + 1 < cfg.sink.batchSize)
    (hwrites : raises (cfg.runtime.sink.write outbound) s.sink = false) :
    Ensures
      (onSink (EStateM.adaptExcept Raised.toExc (write cfg.sink.tagged cfg.retry outbound))) s
      (fun r t => match r with
        | .ok _ => t.sink.committed = s.sink.committed ∧ t.sink.routed = s.sink.routed
        | .error _ => False) := by
  have hwrites : raises (write cfg.sink.tagged cfg.retry outbound) s.sink = false :=
    (raises_adaptExcept _ _ _).symm.trans hwrites
  unfold onSink
  rw [ensures_zoom, ensures_adaptExcept]
  exact (ensures_write_tagged cfg.sink cfg.retry outbound s.sink).of_not_raises hwrites
    (fun _ t ht => (ht.2 hroom).2)

/-- **A delivery in time**: the record is acknowledged only if it is durable. -/
theorem ensures_deliver_inTime {flush : Bool} {record : ℕ × T}
    {s : Delivering (PostgresSink.State (ℕ × ρ))}
    (h : flush = true ∨ cfg.sink.batchSize ≤ s.sink.buffer.length + 1) :
    Ensures (cfg.runtime.deliver flush false record) s
      (fun _ t => t.acknowledged = s.acknowledged ∨ t.sink.Durable record.1) := by
  unfold deliver
  cases houtbound : cfg.runtime.outbound record with
  | error e => exact .inl rfl
  | ok outbound =>
    have htag := outbound_fst houtbound
    rw [ensures_bind, ensures_get]
    show Ensures (match s.active with | none => _ | some delivery => _) s _
    cases s.active with
    | none => exact .inl rfl
    | some delivery =>
      have hwrite := ensures_write_tagged cfg.sink cfg.retry outbound s.sink
      rw [htag] at hwrite
      refine (ensures_onSink (Q := fun r t => match r with
          | .ok _ => (∃ row ∈ t.buffer, row.1 = record.1) ∧ flush = true ∨ t.Durable record.1
          | .error _ => True) (hwrite.mono (fun r t hrt => ?_))).bind
        (fun _ t hst => ?_) (fun _ t hst => .inl hst.2.1)
      · cases r with
        | error _ => exact trivial
        | ok _ =>
          by_cases hfull : cfg.sink.batchSize ≤ s.sink.buffer.length + 1
          · exact .inr (hrt.1 hfull)
          · exact .inl ⟨(hrt.2 (Nat.lt_of_not_le hfull)).1, h.resolve_right hfull⟩
      · obtain ⟨hrow, hacked, _⟩ := hst
        have hsettle : Ensures (cfg.runtime.settleSink flush) t (fun r u => match r with
            | .ok _ => u.sink.Durable record.1
            | .error _ => u.acknowledged = t.acknowledged) := by
          rcases hrow with ⟨⟨row, hmem, hi⟩, rfl⟩ | hdurable
          · refine (ensures_onSink (Q := fun r u => match r with
                | .ok _ => u.Durable record.1
                | .error _ => True)
              ((exits_flush cfg.sink.tagged cfg.retry t.sink).mono (fun r u hru => ?_))).mono
              (fun r u hru => ?_)
            · cases r with
              | ok _ => exact .inl ⟨row, hru row hmem, hi⟩
              | error _ => exact trivial
            · cases r with
              | ok _ => exact hru.1
              | error _ => exact hru.2.1
          · cases flush with
            | false => exact hdurable
            | true =>
              refine (ensures_onSink (Q := fun _ u => u.Durable record.1)
                ((grows_flush cfg.sink.tagged cfg.retry t.sink).mono
                  (fun _ u hu => hu.durable hdurable))).mono (fun r u hru => ?_)
              cases r with
              | ok _ => exact hru.1
              | error _ => exact hru.2.1
        refine hsettle.bind (fun _ u hu => ?_) (fun _ u hu => .inl (hu.trans hacked))
        rw [ensures_bind]
        refine (ensures_ack delivery u).mono (fun r v hv => ?_)
        have hdurable : v.sink.Durable record.1 := by
          rw [hv.1]
          exact hu
        cases r with
        | ok _ => exact .inr hdurable
        | error _ => exact .inr hdurable

/-- **A delivery too early**: the row is in the buffer only, and the record is
acknowledged. -/
theorem ensures_deliver_early {record : ℕ × T} {outbound : ℕ × U}
    {s : Delivering (PostgresSink.State (ℕ × ρ))}
    (houtbound : cfg.runtime.outbound record = .ok outbound) (hactive : s.active ≠ none)
    (hroom : s.sink.buffer.length + 1 < cfg.sink.batchSize)
    (hwrites : raises (cfg.runtime.sink.write outbound) s.sink = false) :
    Ensures (cfg.runtime.deliver false false record) s
      (fun _ t => t.acknowledged = true ∧ t.sink.committed = s.sink.committed
        ∧ t.sink.routed = s.sink.routed) := by
  unfold deliver
  rw [houtbound]
  obtain ⟨delivery, hdelivery⟩ := Option.ne_none_iff_exists'.1 hactive
  rw [ensures_bind, ensures_get]
  dsimp only
  rw [hdelivery]
  show Ensures (do
    onSink (EStateM.adaptExcept Raised.toExc (write cfg.sink.tagged cfg.retry outbound))
    _) s _
  refine (ensures_write_early hroom hwrites).bind (fun _ t hst => ?_) (fun _ _ hfalse => hfalse.elim)
  have hsettle : cfg.runtime.settleSink false = pure ⟨⟩ := rfl
  rw [hsettle, ensures_bind, ensures_pure]
  dsimp only
  rw [ensures_bind]
  refine (ensures_ack delivery t).mono (fun r u hu => ?_)
  have hsame : u.acknowledged = true ∧ u.sink.committed = s.sink.committed
      ∧ u.sink.routed = s.sink.routed := by
    rw [hu.1]
    exact ⟨hu.2, hst⟩
  cases r with
  | ok _ => exact hsame
  | error _ => exact hsame

/-- A delivery whose write raises acknowledges nothing. -/
theorem ensures_deliver_fails {flush : Bool} {record : ℕ × T}
    {s : Delivering (PostgresSink.State (ℕ × ρ))}
    (h : ∀ outbound, cfg.runtime.outbound record = .ok outbound →
      raises (cfg.runtime.sink.write outbound) s.sink = true) :
    Ensures (cfg.runtime.deliver flush false record) s
      (fun _ t => t.acknowledged = s.acknowledged) := by
  unfold deliver
  cases houtbound : cfg.runtime.outbound record with
  | error e => rfl
  | ok outbound =>
    rw [ensures_bind, ensures_get]
    dsimp only
    cases s.active with
    | none => rfl
    | some delivery =>
      have hwrites : raises (write cfg.sink.tagged cfg.retry outbound) s.sink = true :=
        (raises_adaptExcept _ _ _).symm.trans (h outbound houtbound)
      have hgrows := grows_write cfg.sink.tagged cfg.retry outbound s.sink
      refine (ensures_onSink (Q := fun r _ => ∃ e, r = .error e)
        (hgrows.of_raises hwrites (fun e _ _ => ⟨e.toExc, rfl⟩))).bind
        (fun _ t ht => ?_) (fun _ t ht => ht.2.1)
      obtain ⟨⟨_, he⟩, _⟩ := ht
      cases he

/-! ## The law -/

/-- What a call leaves is safe if the sink has only grown, and a record it
acknowledged is durable. -/
theorem Safe.left {s : Session T ρ} {t : Delivering (PostgresSink.State (ℕ × ρ))}
    (hs : Safe s) (hgrows : SinkGrows s.delivering t)
    (hacked : ∀ record, s.record = some record →
      s.delivering.acknowledged = true ∨ t.acknowledged = false ∨ t.sink.Durable record.1) :
    Safe (s.left t) := by
  intro i hi
  rcases List.mem_append.1 hi with hi | hi
  · exact hgrows.durable (hs i hi)
  · split at hi
    · rename_i hnew
      obtain ⟨hset, hclear⟩ := Bool.and_eq_true_iff.1 hnew
      obtain ⟨record, hrecord, rfl⟩ := Option.mem_map.1 (Option.mem_toList.1 hi)
      rcases hacked record hrecord with h | h | h
      · rw [h] at hclear
        cases hclear
      · rw [h] at hset
        cases hset
      · exact h
    · cases hi

/-- A record that has been acknowledged and is not durable is a loss. -/
theorem not_safe_left {s : Session T ρ} {t : Delivering (PostgresSink.State (ℕ × ρ))}
    {record : ℕ × T} (hrecord : s.record = some record)
    (hclear : s.delivering.acknowledged = false) (hset : t.acknowledged = true)
    (hdurable : ¬ t.sink.Durable record.1) : ¬ Safe (s.left t) := by
  intro hsafe
  refine hdurable (hsafe record.1 (List.mem_append_right _ ?_))
  rw [hset, hclear, hrecord]
  exact List.mem_singleton.2 rfl

theorem acknowledged_or_not (s : Session T ρ) {P : Prop} :
    s.delivering.acknowledged = true ∨ s.delivering.acknowledged = false ∨ P := by
  cases s.delivering.acknowledged with
  | true => exact .inl rfl
  | false => exact .inr (.inl rfl)

/-- A stream that is resumed acknowledges what it had handed out. -/
theorem safe_next_iff {s : Session T ρ} (hs : Safe s) (record : T) (tp : TopicPartition)
    (offset : ℤ) (replies : List Reply)
    {t : Delivering (PostgresSink.State (ℕ × ρ))}
    (ht : t = finalState (passOn cfg) { s.delivering with script := replies }) :
    Safe (s.left t) ↔ InTime cfg s (.next record tp offset replies) := by
  have hgrows : SinkGrows s.delivering t := by
    rw [ht]
    exact (@respects_passOn _ _ _ cfg { s.delivering with script := replies }).finalState
  have hpass : Ensures (passOn cfg) { s.delivering with script := replies } (fun _ u =>
      u.sink = s.delivering.sink
        ∧ (s.delivering.active = none → u.acknowledged = s.delivering.acknowledged)
        ∧ (s.delivering.active ≠ none → u.acknowledged = true)) := by
    unfold passOn
    rw [ensures_bind, ensures_get]
    dsimp only
    cases hactive : s.delivering.active with
    | none => exact ⟨rfl, fun _ => rfl, fun h => absurd rfl h⟩
    | some delivery =>
      refine (ensures_ack delivery _).mono (fun _ u hu => ⟨hu.1, nofun, fun _ => hu.2⟩)
  obtain ⟨hsink, hnone, hsome⟩ := hpass.finalState
  rw [← ht] at hsink hnone hsome
  constructor
  · intro hsafe last hlast hactive
    by_contra hnot
    simp only [or_false, not_or] at hnot
    refine not_safe_left hlast (by simpa using hnot.1) (hsome hactive) ?_ hsafe
    rw [hsink]
    exact hnot.2
  · intro hin
    refine hs.left hgrows (fun last hlast => ?_)
    by_cases hactive : s.delivering.active = none
    · rw [hnone hactive]
      exact acknowledged_or_not s
    · rcases hin last hlast hactive with h | h | h
      · exact .inl h
      · exact .inr (.inr (hgrows.durable h))
      · exact h.elim

/-- A delivery. -/
theorem safe_deliver_iff {s : Session T ρ} (hs : Safe s) {record : ℕ × T}
    (hrecord : s.record = some record) (flush : Bool) (answers : List Answer)
    (replies : List Reply) :
    Safe (s.left (finalState (cfg.runtime.deliver flush false record)
        { s.meeting answers with script := replies }))
      ↔ InTime cfg s (.deliver flush answers replies) := by
  have hgrows : SinkGrows s.delivering (finalState (cfg.runtime.deliver flush false record)
      { s.meeting answers with script := replies }) := by
    have h := (@respects_deliver _ _ _ cfg flush record
      { s.meeting answers with script := replies }).finalState
    exact ⟨h.committed, h.routed⟩
  constructor
  · -- if it was not in time, the record is acknowledged before its row is stored
    intro hsafe last hlast hactive
    obtain rfl : record = last := Option.some.inj (hrecord.symm.trans hlast)
    by_contra hnot
    simp only [not_or, Bool.not_eq_true, Nat.not_le] at hnot
    obtain ⟨hclear, hdurable, rfl, hroom, hwrites⟩ := hnot
    unfold failsToWrite at hwrites
    cases houtbound : cfg.runtime.outbound record with
    | error e =>
      rw [houtbound] at hwrites
      cases hwrites
    | ok outbound =>
      rw [houtbound] at hwrites
      obtain ⟨hset, hcommitted, hrouted⟩ := (ensures_deliver_early
        (s := { s.meeting answers with script := replies }) houtbound hactive hroom
        hwrites).finalState
      refine not_safe_left hlast hclear hset ?_ hsafe
      unfold State.Durable
      rw [hcommitted, hrouted]
      exact hdurable
  · -- and if it was, the sink only grows
    intro hin
    refine hs.left hgrows (fun last hlast => ?_)
    obtain rfl : record = last := Option.some.inj (hrecord.symm.trans hlast)
    by_cases hactive : s.delivering.active = none
    · have hsame : Ensures (cfg.runtime.deliver flush false record)
          { s.meeting answers with script := replies }
          (fun _ t => t.acknowledged = s.delivering.acknowledged) := by
        unfold deliver
        cases cfg.runtime.outbound record with
        | error e => rfl
        | ok outbound =>
          rw [ensures_bind, ensures_get]
          dsimp only [Session.meeting]
          rw [hactive]
          rfl
      rw [hsame.finalState]
      exact acknowledged_or_not s
    · rcases hin record hlast hactive with h | h | h
      · exact .inl h
      · exact .inr (.inr (hgrows.durable h))
      · have h : (flush = true ∨ cfg.sink.batchSize ≤ s.delivering.sink.buffer.length + 1)
            ∨ failsToWrite cfg s answers record = true := or_assoc.2 h
        rcases h with h | h
        · have hdeliver := (@ensures_deliver_inTime _ _ _ cfg _ record
            { s.meeting answers with script := replies } h).finalState
          rcases hdeliver with h | h
          · rw [h]
            exact acknowledged_or_not s
          · exact .inr (.inr h)
        · have hfails : ∀ outbound, cfg.runtime.outbound record = .ok outbound →
              raises (cfg.runtime.sink.write outbound) (s.meeting answers).sink = true := by
            intro outbound houtbound
            unfold failsToWrite at h
            rw [houtbound] at h
            exact h
          have hsame := (@ensures_deliver_fails _ _ _ cfg flush record
            { s.meeting answers with script := replies } hfails).finalState
          rw [hsame]
          exact acknowledged_or_not s

/-- A call of the sink alone acknowledges nothing. -/
theorem safe_sinkCall {s : Session T ρ} (hs : Safe s) {m : SinkM (ℕ × ρ) PUnit}
    (hm : Respects Grows m) (answers : List Answer) :
    Safe (s.left (finalState (onSink (EStateM.adaptExcept Raised.toExc m))
      (s.meeting answers))) := by
  have hgrows := (respects_onSink hm (s.meeting answers)).finalState
  refine hs.left ⟨hgrows.committed, hgrows.routed⟩ (fun _ _ => ?_)
  have hsame := (ensures_onSink (s := s.meeting answers) (Q := fun _ _ => True)
    ((hm (s.meeting answers).sink).mono (fun _ _ _ => trivial))).finalState
  rw [hsame.2.1]
  exact acknowledged_or_not s

/-- **What decides one event.** -/
theorem step_safe_iff {s t : Session T ρ} {e : Event T} (hs : Safe s)
    (h : step cfg s e = some t) : Safe t ↔ InTime cfg s e := by
  cases e with
  | next record tp offset replies =>
    unfold step at h
    have hiff := @safe_next_iff _ _ _ cfg s hs record tp offset replies _ rfl
    unfold finalState at hiff
    dsimp only at h
    cases hpass : passOn cfg { s.delivering with script := replies } with
    | ok a u =>
      rw [hpass] at h hiff
      rw [← Option.some.inj h]
      exact hiff
    | error e u =>
      rw [hpass] at h hiff
      rw [← Option.some.inj h]
      exact hiff
  | deliver flush answers replies =>
    obtain ⟨record, hrecord, rfl⟩ := Option.map_eq_some_iff.1 h
    exact safe_deliver_iff hs hrecord flush answers replies
  | flush answers =>
    rw [← Option.some.inj h]
    refine iff_of_true ?_ (fun _ _ _ => .inr (.inr trivial))
    exact safe_sinkCall hs (grows_flush cfg.sink.tagged cfg.retry) answers
  | close answers =>
    rw [← Option.some.inj h]
    refine iff_of_true ?_ (fun _ _ _ => .inr (.inr trivial))
    exact safe_sinkCall hs (grows_close cfg.sink.tagged cfg.retry) answers

variable (cfg)

/-- **What is acknowledged is durable, in exactly the runs** in which every
record is durable by the time it is acknowledged: delivered with a flush or
filling the buffer, and passed on by the stream only after that. -/
theorem acknowledged_durable_iff (es : List (Event T)) :
    AllStates (step cfg) Safe {} es
      ↔ AllSteps (step cfg) (fun s e _ => InTime cfg s e) {} es := by
  have hinitial : Safe ({} : Session T ρ) := by
    intro i hi
    cases hi
  refine allStates_iff_allSteps (I := fun _ => True) ?_ trivial hinitial es
  exact fun _ _ _ _ hs h => ⟨trivial, step_safe_iff hs h⟩

/-- Rows that are the records, in batches of the default size. -/
def plainSettings : Settings ℕ ℕ ℕ where
  groupId := "orders-to-postgres"
  sink := { rowMapper := Except.ok }
  retry := { run := id, attempts := fun _ s => .last s }
  transform := Except.ok
  decorate := Except.ok

/-- A record is delivered without a flush; nothing fails. -/
def deliveredUnflushed : List (Event ℕ) :=
  [.next 7 ⟨"orders", 0⟩ 0 [], .deliver false [] []]

/-- **The record is acknowledged** while its row is in the buffer. -/
theorem acknowledged_not_durable :
    ¬ AllStates (step plainSettings) Safe {} deliveredUnflushed := by
  decide

end KafkaPostgresRuntime

import Mathlib.Data.List.Basic
import AgoraPlugins.Dlq.Policy
import AgoraPlugins.Dlq.ReplayAccounting

/-!
# The Postgres DLQ

A record is a row, with a column for each entry of its payload. Values are JSONB
columns, written as JSON texts and read as what the texts say; the order in which
JSONB keeps the members of an object plays no part. A text that was stored as a value
is taken for JSON once more when it is read.

When the payload is encrypted, the envelope stands in the column of the record, and the
columns of the other values are `NULL`. Reading back starts from the column of the
record, as it does for Redis: if it is an envelope, everything comes from what is in
there, the number of attempts as well.
-/

namespace Dlq

/-- **The columns of a row**, where `json` is what stands for a JSONB column. -/
structure Columns (δ json : Type) where
  pipelineId : String
  runId : String
  stage : String
  errorType : String
  errorMessage : String
  record : json
  originalRecord : json
  processedRecord : json
  dedupeKey : Option String
  source : Option String
  checkpoint : json
  details : json
  middleware : Option String
  sink : Option String
  createdAt : δ
  attempt : ℤ
  maxAttempts : Option ℤ

namespace PostgresPayloads

variable {δ : Type} (py : Python δ) (sha256 : String → String)

/-- `serialize_json`. -/
def serializeJson : Json → Option String
  | .null => none
  | v => some (Json.dumps v)

/-- `record_to_payload`. -/
def recordToPayload (r : DLQRecord δ) : Payload :=
  payloadOf optional id (fun t => .other (py.strDatetime t)) r

/-- `payload_to_row`. -/
def payloadToRow (payload : Payload) : Except Exc (Columns δ (Option String)) := do
  let pipelineId ← payload.item "pipeline_id"
  let runId ← payload.item "run_id"
  let stage ← payload.item "stage"
  let errorType ← payload.item "error_type"
  let errorMessage ← payload.item "error_message"
  let createdAt ← coerceDatetime py (← payload.item "created_at")
  let attempt ← int py ((Json.find "attempt" payload).getD (.num 0))
  let maxAttempts ← optionalInt py (payload.value "max_attempts")
  pure
    { pipelineId := str py pipelineId
      runId := str py runId
      stage := str py stage
      errorType := str py errorType
      errorMessage := str py errorMessage
      record := serializeJson (payload.value "record")
      originalRecord := serializeJson (payload.value "original_record")
      processedRecord := serializeJson (payload.value "processed_record")
      dedupeKey := none
      source := optionalStr py (payload.value "source")
      checkpoint := serializeJson (payload.value "checkpoint")
      details := serializeJson (payload.value "details")
      middleware := optionalStr py (payload.value "middleware")
      sink := optionalStr py (payload.value "sink")
      createdAt := createdAt
      attempt := attempt
      maxAttempts := maxAttempts }

/-- `dedupe_key_for_row`: the hash of the columns, by their names in order. -/
def dedupeKeyForRow (row : Columns δ (Option String)) : String :=
  sha256 (Json.dumps (.obj
    [("attempt", .num row.attempt), ("checkpoint", optional row.checkpoint),
      ("created_at", .str (py.isoformat row.createdAt)), ("details", optional row.details),
      ("error_message", .str row.errorMessage), ("error_type", .str row.errorType),
      ("max_attempts", match row.maxAttempts with
        | none => .null
        | some n => .num n),
      ("middleware", optional row.middleware), ("original_record", optional row.originalRecord),
      ("pipeline_id", .str row.pipelineId), ("processed_record", optional row.processedRecord),
      ("record", optional row.record), ("run_id", .str row.runId), ("sink", optional row.sink),
      ("source", optional row.source), ("stage", .str row.stage)]))

/-- What the policy makes of the payload of a record. -/
def applied (policy : Option DLQPayloadPolicy) (r : DLQRecord δ) : Payload :=
  match policy with
  | none => recordToPayload py r
  | some policy => policy.apply py (recordToPayload py r)

/-- The row with the envelope in it. -/
def encryptedRow (row : Columns δ (Option String)) (envelope : Payload) :
    Columns δ (Option String) :=
  { row with
    record := serializeJson (.obj envelope)
    originalRecord := none
    processedRecord := none
    checkpoint := none
    details := none }

/-- **`record_to_row`.** The dedupe key is that of the row in clear. -/
def recordToRow (policy : Option DLQPayloadPolicy) (r : DLQRecord δ) :
    Except Exc (Columns δ (Option String)) := do
  let row ← payloadToRow py (applied py policy r)
  let dedupeKey := dedupeKeyForRow py sha256 row
  match policy with
  | none => pure { row with dedupeKey := some dedupeKey }
  | some policy =>
    if policy.mode = .encrypted then do
      let envelope ← policy.encryptPayload (applied py (some policy) r)
      pure { encryptedRow row envelope with dedupeKey := some dedupeKey }
    else pure { row with dedupeKey := some dedupeKey }

/-- `decode_json` of what a JSONB column gives. -/
def decodeJsonValue : Json → Json
  | .str text => decodeJson text
  | v => v

/-- `row_to_payload`. -/
def rowToPayload (row : Columns δ Json) : Payload :=
  [("pipeline_id", .str row.pipelineId), ("run_id", .str row.runId), ("stage", .str row.stage),
    ("error_type", .str row.errorType), ("error_message", .str row.errorMessage),
    ("record", decodeJsonValue row.record),
    ("original_record", decodeJsonValue row.originalRecord),
    ("processed_record", decodeJsonValue row.processedRecord), ("source", optional row.source),
    ("checkpoint", decodeJsonValue row.checkpoint), ("details", decodeJsonValue row.details),
    ("middleware", optional row.middleware), ("sink", optional row.sink),
    ("created_at", .other (py.strDatetime (py.withTimezone row.createdAt))),
    ("attempt", .num row.attempt),
    ("max_attempts", match row.maxAttempts with
      | none => .null
      | some n => .num n)]

/-- **`row_to_record`**, with the storage id that the source gives to the record. -/
def rowToRecord (policy : Option DLQPayloadPolicy) (sid : Option StorageId)
    (row : Columns δ Json) : Except Exc (DLQRecord δ) :=
  storedToRecord py "Encrypted Postgres DLQ payload requires a DLQPayloadPolicy." policy sid
    (decodeJsonValue row.record) (payloadToRecord py sid (rowToPayload py row))

end PostgresPayloads

open PostgresPayloads

/-! ## The table -/

/-- What a JSONB column gives for the text that was written to it. -/
def jsonb : Option String → Json
  | none => .null
  | some text => (Json.loads text).getD .null

namespace Columns

variable {δ : Type}

/-- The row that is stored. -/
def stored (row : Columns δ (Option String)) : Columns δ Json :=
  { row with
    record := jsonb row.record
    originalRecord := jsonb row.originalRecord
    processedRecord := jsonb row.processedRecord
    checkpoint := jsonb row.checkpoint
    details := jsonb row.details }

end Columns

/-- The values of an `INTEGER` column. -/
def IsInteger (n : ℤ) : Prop := -2147483648 ≤ n ∧ n ≤ 2147483647

instance (n : ℤ) : Decidable (IsInteger n) := inferInstanceAs (Decidable (_ ∧ _))

/-- What is raised for any other value. -/
def outOfRange : Exc := .exception "NumericValueOutOfRange" "integer out of range"

/-- **The table of a DLQ**: its rows by their ids, and the next id. -/
structure Table (δ : Type) where
  rows : List (ℕ × Columns δ Json)
  nextId : ℕ
  fresh : ∀ e ∈ rows, e.1 < nextId

namespace Table

variable {δ : Type} (t : Table δ)

/-- The row with this id. -/
def row (id : ℕ) : Option (Columns δ Json) :=
  (t.rows.find? (fun e => e.1 = id)).map Prod.snd

/-- The id of the row with this dedupe key. -/
def idOf (dedupeKey : Option String) : Option ℕ :=
  if dedupeKey = none then none
  else (t.rows.find? (fun e => e.2.dedupeKey = dedupeKey)).map Prod.fst

/-- The table without rows. -/
def empty : Table δ := ⟨[], 1, nofun⟩

/-- A row with the next id. -/
def append (columns : Columns δ (Option String)) : Table δ where
  rows := t.rows ++ [(t.nextId, columns.stored)]
  nextId := t.nextId + 1
  fresh := by
    intro e he
    rcases List.mem_append.1 he with he | he
    · exact Nat.lt_succ_of_lt (t.fresh e he)
    · rw [List.mem_singleton.1 he]
      exact Nat.lt_succ_self _

/-- An id that is not used. -/
def skipId : Table δ where
  rows := t.rows
  nextId := t.nextId + 1
  fresh := fun e he => Nat.lt_succ_of_lt (t.fresh e he)

/-- **`INSERT … ON CONFLICT (dedupe_key)`**, which gives the id and whether the row is
new. -/
def insert (columns : Columns δ (Option String)) : Except Exc (ℕ × Bool × Table δ) :=
  if IsInteger columns.attempt ∧ ∀ n ∈ columns.maxAttempts, IsInteger n then
    match t.idOf columns.dedupeKey with
    | some id => pure (id, false, t.skipId)
    | none => pure (t.nextId, true, t.append columns)
  else throw outOfRange

/-- The table with other attempts in the row with this id. -/
def withAttempt (attempt : ℤ) (id : Option ℕ) : Table δ where
  rows := t.rows.map (fun e =>
    if some e.1 = id then (e.1, { e.2 with attempt := attempt }) else e)
  nextId := t.nextId
  fresh := by
    intro e he
    obtain ⟨e', he', h⟩ := List.mem_map.1 he
    rw [← h]
    split <;> exact t.fresh e' he'

/-- **`UPDATE … SET attempt`** of the row with this id. -/
def setAttempt (attempt : ℤ) (id : Option ℕ) : Except Exc (Table δ) :=
  if IsInteger attempt then pure (t.withAttempt attempt id) else throw outOfRange

end Table

/-! ## The sink and the source -/

/-- **The settings of a sink and its source.** -/
structure PostgresDLQ where
  payloadPolicy : Option DLQPayloadPolicy

namespace PostgresDLQ

variable {δ : Type} (py : Python δ) (sha256 : String → String) (cfg : PostgresDLQ)

/-- **`write`**, and each record of `write_batch`. -/
def write (r : DLQRecord δ) (t : Table δ) : Except Exc (ℕ × Bool × Table δ) := do
  t.insert (← recordToRow py sha256 cfg.payloadPolicy r)

/-- The row that `replay` goes to: that of the storage id, or else the first with the
same pipeline, run, stage and time. -/
def rowIdOf [DecidableEq δ] (r : DLQRecord δ) (t : Table δ) : Except Exc (Option ℕ) :=
  match r.storageId with
  | some (.row id) => pure (some id)
  | some (.key _) => throw (.exception "InvalidTextRepresentation"
      "invalid input syntax for type bigint")
  | none => pure ((t.rows.filter (fun e => e.2.pipelineId = r.pipelineId
      ∧ e.2.runId = r.runId ∧ e.2.stage = r.stage ∧ e.2.createdAt = r.createdAt)).map
        Prod.fst).min?

/-- **`replay`.** -/
def replay [DecidableEq δ] (r : DLQRecord δ) (t : Table δ) : Except Exc (Table δ) := do
  t.setAttempt r.replayed.attempt (← rowIdOf r t)

/-- What a scan makes of the row with this id. -/
def scan (id : ℕ) (t : Table δ) : Option (DLQRecord δ) :=
  (t.row id).bind (fun row =>
    (rowToRecord py cfg.payloadPolicy (some (.row id)) row).toOption)

end PostgresDLQ

/-! ## What a table gives -/

namespace Table

variable {δ : Type} {t t' : Table δ} {id : ℕ}

/-- **A new row** is the one with its id. -/
theorem row_append (columns : Columns δ (Option String)) :
    (t.append columns).row t.nextId = some columns.stored := by
  have hnone : t.rows.find? (fun e => e.1 = t.nextId) = none := by
    refine List.find?_eq_none.2 (fun e he h => ?_)
    have hlt := t.fresh e he
    have heq : e.1 = t.nextId := of_decide_eq_true h
    omega
  show (List.find? (fun e => e.1 = t.nextId) (t.rows ++ _)).map Prod.snd = _
  rw [List.find?_append, hnone]
  simp

theorem insert_of_new {columns : Columns δ (Option String)}
    (h : t.insert columns = .ok (id, true, t')) :
    t'.row id = some columns.stored ∧ IsInteger columns.attempt := by
  unfold insert at h
  split at h
  next hinteger =>
    split at h
    next => cases h
    next =>
      cases h
      exact ⟨row_append columns, hinteger.1⟩
  next => cases h

/-- **An update of the attempts** leaves the other columns as they are. -/
theorem row_withAttempt {row : Columns δ Json} (hrow : t.row id = some row) (n : ℤ) :
    (t.withAttempt n (some id)).row id = some { row with attempt := n } := by
  obtain ⟨e, he, hsnd⟩ := Option.map_eq_some_iff.1 hrow
  have hid : e.1 = id := by simpa using List.find?_some he
  have hkeep : ((fun e : ℕ × Columns δ Json => decide (e.1 = id)) ∘ fun e =>
      if some e.1 = some id then (e.1, { e.2 with attempt := n }) else e)
      = fun e => decide (e.1 = id) := by
    funext e
    show decide ((if some e.1 = some id then _ else e).1 = id) = _
    split <;> rfl
  show ((t.rows.map _).find? _).map Prod.snd = _
  rw [List.find?_map, hkeep, he]
  show some ((if some e.1 = some id then _ else e).2) = _
  rw [if_pos (congrArg some hid), hsnd]

end Table

/-! ## Reading a row -/

namespace PostgresPayloads

variable {δ : Type} {py : Python δ} {sha256 : String → String}

/-- The record that the columns of a row make. -/
def assembled (py : Python δ) (sid : Option StorageId) (row : Columns δ Json) : DLQRecord δ where
  pipelineId := row.pipelineId
  runId := row.runId
  stage := row.stage
  errorType := row.errorType
  errorMessage := row.errorMessage
  record := decodeJsonValue row.record
  originalRecord := decodeJsonValue row.originalRecord
  processedRecord := decodeJsonValue row.processedRecord
  source := row.source
  checkpoint := decodeJsonValue row.checkpoint
  details := decodeJsonValue row.details
  middleware := row.middleware
  sink := row.sink
  createdAt := py.withTimezone (py.withTimezone row.createdAt)
  attempt := row.attempt
  maxAttempts := row.maxAttempts
  storageId := sid

/-- **Any row in clear can be read.** -/
theorem payloadToRecord_rowToPayload (sid : Option StorageId) (row : Columns δ Json) :
    payloadToRecord py sid (rowToPayload py row) = .ok (assembled py sid row) := by
  have hsource : ∀ text, optionalStr py (optional text) = text := by
    intro text
    cases text <;> rfl
  unfold rowToPayload assembled
  cases hm : row.maxAttempts <;>
    simp [payloadToRecord, Payload.item, Payload.value, Json.find, coerceDatetime, int, str,
      optionalInt, hsource, py.fromisoformat_strDatetime, bind, Except.bind, pure, Except.pure,
      Functor.map, Except.map]

/-! ## What has been written -/

theorem jsonb_dumps (v : Json) : jsonb (some (Json.dumps v)) = v.normal := by
  show (Json.loads (Json.dumps v)).getD .null = _
  rw [Json.loads_dumps]
  rfl

/-- What a JSONB column gives back of a value. -/
theorem jsonb_serializeJson (v : Json) : jsonb (serializeJson v) = v.normal := by
  cases v with
  | null => rfl
  | bool b => exact jsonb_dumps _
  | num n => exact jsonb_dumps _
  | float x => exact jsonb_dumps _
  | str s => exact jsonb_dumps _
  | other text => exact jsonb_dumps _
  | arr items => exact jsonb_dumps _
  | obj members => exact jsonb_dumps _

variable (py) in
/-- What is written for the value of a record, as it is read back: as JSON, and once more
if it is a text. -/
def storedValue (policy : Option DLQPayloadPolicy) (r : DLQRecord δ) : Json :=
  decodeJsonValue ((applied py policy r).value "record").normal

theorem record_of_payloadToRow {payload : Payload} {row : Columns δ (Option String)}
    (h : payloadToRow py payload = .ok row) :
    row.record = serializeJson (payload.value "record")
      ∧ int py ((Json.find "attempt" payload).getD (.num 0)) = .ok row.attempt := by
  unfold payloadToRow at h
  obtain ⟨pipelineId, _, h⟩ := exists_of_bind_eq_ok h
  obtain ⟨runId, _, h⟩ := exists_of_bind_eq_ok h
  obtain ⟨stage, _, h⟩ := exists_of_bind_eq_ok h
  obtain ⟨errorType, _, h⟩ := exists_of_bind_eq_ok h
  obtain ⟨errorMessage, _, h⟩ := exists_of_bind_eq_ok h
  obtain ⟨created, _, h⟩ := exists_of_bind_eq_ok h
  obtain ⟨t, _, h⟩ := exists_of_bind_eq_ok h
  obtain ⟨n, hn, h⟩ := exists_of_bind_eq_ok h
  obtain ⟨m, _, h⟩ := exists_of_bind_eq_ok h
  cases h
  exact ⟨rfl, hn⟩

/-- Where nothing is encrypted, the value of the record is in its column. -/
theorem decodeJsonValue_of_recordToRow {policy : Option DLQPayloadPolicy}
    (hencrypts : encrypts policy = false) {r : DLQRecord δ} {row : Columns δ (Option String)}
    (h : recordToRow py sha256 policy r = .ok row) :
    decodeJsonValue row.stored.record = storedValue py policy r := by
  have hstored : ∀ {clear : Columns δ (Option String)},
      payloadToRow py (applied py policy r) = .ok clear →
      decodeJsonValue (jsonb clear.record) = storedValue py policy r := by
    intro clear hclear
    rw [(record_of_payloadToRow hclear).1, jsonb_serializeJson]
    rfl
  unfold recordToRow at h
  obtain ⟨clear, hclear, h⟩ := exists_of_bind_eq_ok h
  cases policy with
  | none =>
    cases h
    show decodeJsonValue (jsonb clear.record) = _
    exact hstored hclear
  | some policy =>
    have hmode : policy.mode ≠ .encrypted := of_decide_eq_false hencrypts
    dsimp only at h
    rw [if_neg hmode] at h
    cases h
    show decodeJsonValue (jsonb clear.record) = _
    exact hstored hclear

/-- **An encrypted row** has the envelope in the column of the record, and the attempts in
clear. -/
theorem record_of_recordToRow {policy : DLQPayloadPolicy} (hmode : policy.mode = .encrypted)
    {r : DLQRecord δ} {row : Columns δ (Option String)}
    (h : recordToRow py sha256 (some policy) r = .ok row) :
    row.stored.record = .obj (policy.envelope
        (policy.cipher.encrypt (Json.dumps (.obj (recordToPayload py r)))))
      ∧ row.attempt = r.attempt := by
  have happlied : applied py (some policy) r = recordToPayload py r := by
    unfold applied DLQPayloadPolicy.apply
    dsimp only
    rw [hmode]
  unfold recordToRow DLQPayloadPolicy.encryptPayload at h
  obtain ⟨clear, hclear, h⟩ := exists_of_bind_eq_ok h
  dsimp only at h
  rw [if_pos hmode, if_pos hmode, happlied] at h
  rw [happlied] at hclear
  have hattempt := (record_of_payloadToRow hclear).2
  rw [show Json.find "attempt" (recordToPayload py r) = some (.num r.attempt) from
    find_attempt_payloadOf _ _ _ r] at hattempt
  obtain rfl := Except.ok.inj h
  refine ⟨?_, (Except.ok.inj hattempt).symm⟩
  unfold Columns.stored encryptedRow
  dsimp only
  rw [jsonb_serializeJson, Json.normal, normalMembers_envelope]

/-- What is decrypted makes a record. -/
theorem exists_record_of_normal (sid : Option StorageId) (r : DLQRecord δ) :
    ∃ r', payloadToRecord py sid (Json.normalMembers (recordToPayload py r)) = .ok r'
      ∧ r'.attempt = r.attempt ∧ r'.storageId = sid :=
  @exists_payloadToRecord_eq δ py optional id (fun t => .other (py.strDatetime t)) r r.createdAt
    (py.fromisoformat_strDatetime r.createdAt) sid

/-- The columns of a record, where nothing is redacted. -/
def clearRow (py : Python δ) (r : DLQRecord δ) : Columns δ (Option String) where
  pipelineId := r.pipelineId
  runId := r.runId
  stage := r.stage
  errorType := r.errorType
  errorMessage := r.errorMessage
  record := serializeJson r.record
  originalRecord := serializeJson r.originalRecord
  processedRecord := serializeJson r.processedRecord
  dedupeKey := none
  source := r.source
  checkpoint := serializeJson r.checkpoint
  details := serializeJson r.details
  middleware := r.middleware
  sink := r.sink
  createdAt := py.withTimezone r.createdAt
  attempt := r.attempt
  maxAttempts := r.maxAttempts

theorem payloadToRow_recordToPayload (r : DLQRecord δ) :
    payloadToRow py (recordToPayload py r) = .ok (clearRow py r) := by
  have hoptional : ∀ text, optionalStr py (optional text) = text := by
    intro text
    cases text <;> rfl
  unfold recordToPayload payloadOf clearRow
  cases hm : r.maxAttempts <;>
    simp [payloadToRow, Payload.item, Payload.value, Json.find, coerceDatetime, int, str,
      optionalInt, hoptional, py.fromisoformat_strDatetime, bind, Except.bind, pure, Except.pure,
      Functor.map, Except.map]

/-- What the policy leaves as it is. -/
theorem applied_eq {policy : Option DLQPayloadPolicy} (hmode : ∀ p ∈ policy, p.mode ≠ .redacted)
    (r : DLQRecord δ) : applied py policy r = recordToPayload py r := by
  unfold applied
  cases policy with
  | none => rfl
  | some policy =>
    unfold DLQPayloadPolicy.apply
    dsimp only
    cases hp : policy.mode with
    | raw => rfl
    | redacted => exact absurd hp (hmode policy rfl)
    | encrypted => rfl

/-- The columns that are stored, but for the dedupe key. -/
def rowOf (py : Python δ) (policy : Option DLQPayloadPolicy) (r : DLQRecord δ) :
    Columns δ (Option String) :=
  match policy with
  | none => clearRow py r
  | some policy =>
    if policy.mode = .encrypted then
      encryptedRow (clearRow py r)
        (policy.envelope (policy.cipher.encrypt (Json.dumps (.obj (recordToPayload py r)))))
    else clearRow py r

/-- **Without redaction every record has a row**: that of its columns, or the one with the
envelope in it. -/
theorem recordToRow_eq {policy : Option DLQPayloadPolicy}
    (hmode : ∀ p ∈ policy, p.mode ≠ .redacted) (r : DLQRecord δ) :
    recordToRow py sha256 policy r = .ok
      { rowOf py policy r with
        dedupeKey := some (dedupeKeyForRow py sha256 (clearRow py r)) } := by
  unfold recordToRow rowOf
  rw [applied_eq hmode, payloadToRow_recordToPayload]
  cases policy with
  | none => rfl
  | some policy =>
    have happlied := @applied_eq δ py (some policy) hmode r
    unfold DLQPayloadPolicy.encryptPayload
    dsimp only
    rw [happlied]
    by_cases hp : policy.mode = .encrypted
    · simp only [if_pos hp]
      rfl
    · simp only [if_neg hp]
      rfl

theorem exists_recordToRow_eq {policy : Option DLQPayloadPolicy}
    (hmode : ∀ p ∈ policy, p.mode ≠ .redacted) (r : DLQRecord δ) :
    ∃ row, recordToRow py sha256 policy r = .ok row ∧ row.attempt = r.attempt
      ∧ row.maxAttempts = r.maxAttempts := by
  refine ⟨_, recordToRow_eq hmode r, ?_, ?_⟩
  all_goals
    unfold rowOf
    cases policy with
    | none => rfl
    | some policy =>
      dsimp only
      split <;> rfl

end PostgresPayloads

end Dlq

import AgoraPlugins.Json
import AgoraPlugins.Reply

/-!
# DLQ records and their payloads

A DLQ record is stored as a payload: a dict with one entry for each of its fields,
which a policy may redact or encrypt on the way. The three stores write nearly the
same payload and read it back in nearly the same way; what they share is here, and
where they differ is a parameter.

What the code uses of Python's standard library besides JSON – the texts of numbers
and of datetimes, `str` of a container, the normal form of a name – is a parameter as
well, with the laws its documentation gives.
-/

/-- **What is used of the standard library**, for a type of datetimes. -/
structure Python (δ : Type) where
  /-- `text.strip().lower()` -/
  normalize : String → String
  /-- `str` of a list or a dict -/
  repr : Json → String
  /-- `int` of a text -/
  int : String → Except Exc ℤ
  isoformat : δ → String
  /-- `str` of a datetime -/
  strDatetime : δ → String
  fromisoformat : String → Except Exc δ
  /-- the datetime in UTC if it has no time zone -/
  withTimezone : δ → δ
  withTimezone_withTimezone : ∀ t, withTimezone (withTimezone t) = withTimezone t
  int_str : ∀ n, int (Json.dumps (.num n)) = .ok n
  fromisoformat_isoformat : ∀ t, fromisoformat (isoformat t) = .ok t
  fromisoformat_strDatetime : ∀ t, fromisoformat (strDatetime t) = .ok t

/-- Datetimes with a time zone, given by their ISO texts; the texts of numbers are those
that JSON writes. -/
def Python.ofTexts : Python String where
  normalize text := (text.trimAscii.toString).toLower
  repr := Json.dumps
  int text := match Json.loads text with
    | some (.num n) => .ok n
    | _ => .error (.exception "ValueError" "invalid literal for int() with base 10")
  isoformat := id
  strDatetime := id
  fromisoformat := .ok
  withTimezone := id
  withTimezone_withTimezone _ := rfl
  int_str n := by rw [Json.loads_dumps]; rfl
  fromisoformat_isoformat _ := rfl
  fromisoformat_strDatetime _ := rfl

/-- The same with names and containers as lists of characters: names without blanks around and
in lower case, and containers with single quotes. -/
def Python.singleQuoted : Python String :=
  { Python.ofTexts with
    normalize := fun text => String.ofList (((text.toList.dropWhile Char.isWhitespace).reverse.dropWhile
      Char.isWhitespace).reverse.map Char.toLower)
    repr := fun v => String.ofList ((Json.write v).map (fun c =>
      if c = Json.quote then Char.ofNat 39 else c)) }

namespace Dlq

/-- What a store calls a record by. -/
inductive StorageId where
  | key (text : String)
  | row (id : ℕ)
  deriving DecidableEq

/-- **`DLQRecord`** of the core package. -/
structure DLQRecord (δ : Type) where
  pipelineId : String
  runId : String
  stage : String
  errorType : String
  errorMessage : String
  record : Json
  originalRecord : Json
  processedRecord : Json
  source : Option String
  checkpoint : Json
  details : Json
  middleware : Option String
  sink : Option String
  createdAt : δ
  attempt : ℤ
  maxAttempts : Option ℤ
  storageId : Option StorageId

/-- The fields that hold a value of any kind. -/
def DLQRecord.values {δ : Type} (r : DLQRecord δ) : List Json :=
  [r.record, r.originalRecord, r.processedRecord, r.checkpoint, r.details]

theorem DLQRecord.forall_values {δ : Type} {r : DLQRecord δ} {p : Json → Prop} :
    (∀ v ∈ r.values, p v) ↔ p r.record ∧ p r.originalRecord ∧ p r.processedRecord
      ∧ p r.checkpoint ∧ p r.details := by
  simp [DLQRecord.values]

/-- The values are JSON values. -/
def DLQRecord.HasJson {δ : Type} (r : DLQRecord δ) : Prop := ∀ v ∈ r.values, v.isJson = true

theorem DLQRecord.HasJson.normal {δ : Type} {r : DLQRecord δ} (h : r.HasJson) :
    ∀ v ∈ r.values, v.normal = v :=
  fun v hv => Json.normal_of_isJson (h v hv)

/-- `DLQSink.replay` of the core package: a copy with one more attempt. -/
def DLQRecord.replayed {δ : Type} (r : DLQRecord δ) : DLQRecord δ :=
  { r with attempt := r.attempt + 1 }

/-- A dict with string keys. -/
abbrev Payload := List (String × Json)

/-- A text that may be `None`. -/
def optional : Option String → Json
  | none => .null
  | some text => .str text

/-- `record_to_payload`. A store chooses how it writes a text that may be `None`, a
value, and the time of creation. -/
def payloadOf {δ : Type} (text : Option String → Json) (value : Json → Json)
    (createdAt : δ → Json) (r : DLQRecord δ) : Payload :=
  [("pipeline_id", .str r.pipelineId), ("run_id", .str r.runId), ("stage", .str r.stage),
    ("error_type", .str r.errorType), ("error_message", .str r.errorMessage),
    ("record", value r.record), ("original_record", value r.originalRecord),
    ("processed_record", value r.processedRecord), ("source", text r.source),
    ("checkpoint", value r.checkpoint), ("details", value r.details),
    ("middleware", text r.middleware), ("sink", text r.sink),
    ("created_at", createdAt r.createdAt), ("attempt", .num r.attempt),
    ("max_attempts", match r.maxAttempts with
      | none => .null
      | some n => .num n)]

namespace Payload

/-- `payload[key]`. -/
def item (payload : Payload) (key : String) : Except Exc Json :=
  match Json.find key payload with
  | some v => pure v
  | none => throw (.exception "KeyError" key)

/-- `payload.get(key)`. -/
def value (payload : Payload) (key : String) : Json := (Json.find key payload).getD .null

end Payload

variable {δ : Type} (py : Python δ)

/-- `str` of a float. What is no number is not written as in JSON. -/
def strFloat : Double → String
  | .finite negative m => Json.dumps (.float (.finite negative m))
  | .infinite false => "inf"
  | .infinite true => "-inf"
  | .nan => "nan"

/-- `int` of a float, towards zero. -/
def intFloat : Double → Except Exc ℤ
  | .finite negative m => pure (if negative then -m.floor else m.floor)
  | .infinite _ => throw (.exception "OverflowError" "cannot convert float infinity to integer")
  | .nan => throw (.exception "ValueError" "cannot convert float NaN to integer")

/-- `str` of a value. -/
def str : Json → String
  | .null => "None"
  | .bool true => "True"
  | .bool false => "False"
  | .num n => Json.dumps (.num n)
  | .float x => strFloat x
  | .str s => s
  | .other text => text
  | .arr items => py.repr (.arr items)
  | .obj members => py.repr (.obj members)

/-- `int` of a value. -/
def int : Json → Except Exc ℤ
  | .num n => pure n
  | .float x => intFloat x
  | .bool b => pure (if b then 1 else 0)
  | .str s => py.int s
  | .null | .other _ | .arr _ | .obj _ =>
    throw (.exception "TypeError" ("int() argument must be a string, a bytes-like object "
      ++ "or a real number"))

/-- `str(value) if value is not None else None`. -/
def optionalStr : Json → Option String
  | .null => none
  | v => some (str py v)

/-- `int(value) if value is not None else None`. -/
def optionalInt : Json → Except Exc (Option ℤ)
  | .null => pure none
  | v => some <$> int py v

/-- `coerce_datetime`. What stands in a payload for a datetime is its text. -/
def coerceDatetime : Json → Except Exc δ
  | .str text => py.fromisoformat text
  | .other text => py.withTimezone <$> py.fromisoformat text
  | .null | .bool _ | .num _ | .float _ | .arr _ | .obj _ =>
    throw (.exception "TypeError" "fromisoformat: argument must be str")

/-- `payload_to_record`. -/
def payloadToRecord (storageId : Option StorageId) (payload : Payload) :
    Except Exc (DLQRecord δ) := do
  let pipelineId ← payload.item "pipeline_id"
  let runId ← payload.item "run_id"
  let stage ← payload.item "stage"
  let errorType ← payload.item "error_type"
  let errorMessage ← payload.item "error_message"
  let createdAt ← coerceDatetime py (← payload.item "created_at")
  let attempt ← int py ((Json.find "attempt" payload).getD (.num 0))
  let maxAttempts ← optionalInt py (payload.value "max_attempts")
  pure
    { pipelineId := str py pipelineId
      runId := str py runId
      stage := str py stage
      errorType := str py errorType
      errorMessage := str py errorMessage
      record := payload.value "record"
      originalRecord := payload.value "original_record"
      processedRecord := payload.value "processed_record"
      source := optionalStr py (payload.value "source")
      checkpoint := payload.value "checkpoint"
      details := payload.value "details"
      middleware := optionalStr py (payload.value "middleware")
      sink := optionalStr py (payload.value "sink")
      createdAt := createdAt
      attempt := attempt
      maxAttempts := maxAttempts
      storageId := storageId }

variable {py} in
/-- What is taken from a payload as it is. -/
theorem of_payloadToRecord {sid : Option StorageId} {payload : Payload} {r : DLQRecord δ}
    (h : payloadToRecord py sid payload = .ok r) :
    r.storageId = sid ∧ r.values = [payload.value "record", payload.value "original_record",
      payload.value "processed_record", payload.value "checkpoint", payload.value "details"] := by
  unfold payloadToRecord at h
  obtain ⟨pipelineId, _, h⟩ := exists_of_bind_eq_ok h
  obtain ⟨runId, _, h⟩ := exists_of_bind_eq_ok h
  obtain ⟨stage, _, h⟩ := exists_of_bind_eq_ok h
  obtain ⟨errorType, _, h⟩ := exists_of_bind_eq_ok h
  obtain ⟨errorMessage, _, h⟩ := exists_of_bind_eq_ok h
  obtain ⟨created, _, h⟩ := exists_of_bind_eq_ok h
  obtain ⟨t, _, h⟩ := exists_of_bind_eq_ok h
  obtain ⟨n, _, h⟩ := exists_of_bind_eq_ok h
  obtain ⟨m, _, h⟩ := exists_of_bind_eq_ok h
  cases h
  exact ⟨rfl, rfl⟩

variable {py} in
theorem storageId_of_payloadToRecord {sid : Option StorageId} {payload : Payload}
    {r : DLQRecord δ} (h : payloadToRecord py sid payload = .ok r) : r.storageId = sid :=
  (of_payloadToRecord h).1

theorem Payload.normal_value {payload : Payload} (h : Json.normalMembers payload = payload)
    (key : String) : (payload.value key).normal = payload.value key := by
  unfold Payload.value
  cases hfind : Json.find key payload with
  | none => rfl
  | some v => exact Json.normal_of_find h hfind

variable {py} in
/-- **The values of a record are in normal form** where its payload is. -/
theorem normal_of_payloadToRecord {sid : Option StorageId} {payload : Payload} {r : DLQRecord δ}
    (h : payloadToRecord py sid payload = .ok r) (hnormal : Json.normalMembers payload = payload) :
    ∀ v ∈ r.values, v.normal = v := by
  rw [(of_payloadToRecord h).2]
  simp [Payload.normal_value hnormal]

theorem find_attempt_payloadOf (text : Option String → Json) (value : Json → Json)
    (createdAt : δ → Json) (r : DLQRecord δ) :
    Json.find "attempt" (payloadOf text value createdAt r) = some (.num r.attempt) := by
  simp [payloadOf, Json.find]

variable {py} in
/-- **A payload makes a record**, once it has been through JSON as well. -/
theorem payloadToRecord_payloadOf {text : Option String → Json} {value : Json → Json}
    {createdAt : δ → Json} {r : DLQRecord δ} {t : δ}
    (hcreated : coerceDatetime py (createdAt r.createdAt).normal = .ok t)
    (sid : Option StorageId) :
    payloadToRecord py sid (Json.normalMembers (payloadOf text value createdAt r)) = .ok
      { r with
        record := (value r.record).normal
        originalRecord := (value r.originalRecord).normal
        processedRecord := (value r.processedRecord).normal
        source := optionalStr py (text r.source).normal
        checkpoint := (value r.checkpoint).normal
        details := (value r.details).normal
        middleware := optionalStr py (text r.middleware).normal
        sink := optionalStr py (text r.sink).normal
        createdAt := t
        storageId := sid } := by
  unfold payloadOf
  cases hm : r.maxAttempts <;>
    simp [Json.normalMembers, Json.normal, payloadToRecord, Payload.item, Payload.value, Json.find,
      int, optionalInt, str, hcreated, bind, Except.bind, pure, Except.pure, Functor.map,
      Except.map]

variable {py} in
/-- The record has the attempts that the payload was made with. -/
theorem exists_payloadToRecord_eq {text : Option String → Json} {value : Json → Json}
    {createdAt : δ → Json} {r : DLQRecord δ} {t : δ}
    (hcreated : coerceDatetime py (createdAt r.createdAt).normal = .ok t)
    (sid : Option StorageId) :
    ∃ r', payloadToRecord py sid (Json.normalMembers (payloadOf text value createdAt r)) = .ok r'
      ∧ r'.attempt = r.attempt ∧ r'.storageId = sid :=
  ⟨_, payloadToRecord_payloadOf hcreated sid, rfl, rfl⟩

/-- `decode_json` of a text. -/
def decodeJson (text : String) : Json :=
  if text = "" then .null else (Json.loads text).getD (.str text)

end Dlq

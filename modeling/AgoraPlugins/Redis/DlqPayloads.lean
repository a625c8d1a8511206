import AgoraPlugins.Dict
import AgoraPlugins.Dlq.Policy

/-!
# DLQ records as Redis hashes

A record is a hash with a field for each entry of its payload, all of them texts.
Values are written as JSON, a missing text as the empty one. When the payload is
encrypted, the envelope stands in the field of the record, and the fields of the other
values are empty.

Reading back starts from the field of the record: if it is an envelope, everything
comes from what is in there, and the other fields are not looked at.
-/

namespace Dlq

/-- A Redis hash. -/
abbrev Hash := Dict String String

namespace RedisPayloads

variable {δ : Type} (py : Python δ)

/-- `record.source or ""`. -/
def textOr : Option String → Json
  | none => .str ""
  | some text => .str text

/-- `record_to_payload`. -/
def recordToPayload (r : DLQRecord δ) : Payload :=
  payloadOf textOr id (fun t => .str (py.isoformat t)) r

/-- `str(value or "")`. -/
def strOr : Json → String
  | .null => ""
  | .bool false => ""
  | .num 0 => ""
  | .float (.finite negative m) =>
    if m.units = 0 then "" else str py (.float (.finite negative m))
  | .arr [] => ""
  | .obj [] => ""
  | v => str py v

/-- `payload_to_hash`. -/
def payloadToHash (payload : Payload) : Except Exc (List (String × String)) := do
  let pipelineId ← payload.item "pipeline_id"
  let runId ← payload.item "run_id"
  let stage ← payload.item "stage"
  let errorType ← payload.item "error_type"
  let errorMessage ← payload.item "error_message"
  let createdAt ← coerceDatetime py (← payload.item "created_at")
  let attempt ← int py ((Json.find "attempt" payload).getD (.num 0))
  let maxAttempts ← optionalInt py (payload.value "max_attempts")
  pure
    [("pipeline_id", str py pipelineId), ("run_id", str py runId), ("stage", str py stage),
      ("error_type", str py errorType), ("error_message", str py errorMessage),
      ("record", Json.dumps (payload.value "record")),
      ("original_record", Json.dumps (payload.value "original_record")),
      ("processed_record", Json.dumps (payload.value "processed_record")),
      ("source", strOr py (payload.value "source")),
      ("checkpoint", Json.dumps (payload.value "checkpoint")),
      ("details", Json.dumps (payload.value "details")),
      ("middleware", strOr py (payload.value "middleware")),
      ("sink", strOr py (payload.value "sink")),
      ("created_at", py.isoformat createdAt), ("attempt", Json.dumps (.num attempt)),
      ("max_attempts", match maxAttempts with
        | none => ""
        | some n => Json.dumps (.num n))]

/-- The fields that give way to the envelope. -/
def encryptedFields (envelope : Payload) : List (String × String) :=
  [("record", Json.dumps (.obj envelope)), ("original_record", ""), ("processed_record", ""),
    ("checkpoint", ""), ("details", "")]

/-- What the policy makes of the payload of a record. -/
def applied (policy : Option DLQPayloadPolicy) (r : DLQRecord δ) : Payload :=
  match policy with
  | none => recordToPayload py r
  | some policy => policy.apply py (recordToPayload py r)

/-- **`record_to_hash`.** Of two entries with one field the later counts. -/
def recordToHash (policy : Option DLQPayloadPolicy) (r : DLQRecord δ) :
    Except Exc (List (String × String)) := do
  let hash ← payloadToHash py (applied py policy r)
  match policy with
  | none => pure hash
  | some policy =>
    if policy.mode = .encrypted then do
      let envelope ← policy.encryptPayload (applied py (some policy) r)
      pure (hash ++ encryptedFields envelope)
    else pure hash

/-- `payload[field]` of a hash. -/
def field (hash : Hash) (name : String) : Except Exc String :=
  match hash.lookup name with
  | some text => pure text
  | none => throw (.exception "KeyError" name)

/-- `decode_json(payload.get(field))`. -/
def decoded (hash : Hash) (name : String) : Json :=
  match hash.lookup name with
  | none => .null
  | some text => decodeJson text

/-- `payload.get(field) or None`. -/
def textOrNone (hash : Hash) (name : String) : Json :=
  match hash.lookup name with
  | none => .null
  | some text => if text = "" then .null else .str text

/-- `int(payload.get("attempt", "0") or 0)`. -/
def attemptOf (hash : Hash) : Except Exc ℤ :=
  match hash.lookup "attempt" with
  | none => pure 0
  | some text => if text = "" then pure 0 else py.int text

/-- The `max_attempts` of a hash, where the empty text stands for `None`. -/
def maxAttemptsOf (hash : Hash) : Except Exc (Option ℤ) :=
  match hash.lookup "max_attempts" with
  | none => pure none
  | some text => if text = "" then pure none else some <$> py.int text

/-- `hash_to_payload`. -/
def hashToPayload (hash : Hash) : Except Exc Payload := do
  let pipelineId ← field hash "pipeline_id"
  let runId ← field hash "run_id"
  let stage ← field hash "stage"
  let errorType ← field hash "error_type"
  let errorMessage ← field hash "error_message"
  let createdAt ← coerceDatetime py (.str (← field hash "created_at"))
  let attempt ← attemptOf py hash
  let maxAttempts ← maxAttemptsOf py hash
  pure
    [("pipeline_id", .str pipelineId), ("run_id", .str runId), ("stage", .str stage),
      ("error_type", .str errorType), ("error_message", .str errorMessage),
      ("record", decoded hash "record"), ("original_record", decoded hash "original_record"),
      ("processed_record", decoded hash "processed_record"),
      ("source", textOrNone hash "source"), ("checkpoint", decoded hash "checkpoint"),
      ("details", decoded hash "details"), ("middleware", textOrNone hash "middleware"),
      ("sink", textOrNone hash "sink"), ("created_at", .other (py.strDatetime createdAt)),
      ("attempt", .num attempt),
      ("max_attempts", match maxAttempts with
        | none => .null
        | some n => .num n)]

/-- The record of the fields of a hash. -/
def fieldsToRecord (hash : Hash) : Except Exc (DLQRecord δ) := do
  payloadToRecord py ((hash.lookup "storage_key").map .key) (← hashToPayload py hash)

/-- **`hash_to_record`.** -/
def hashToRecord (policy : Option DLQPayloadPolicy) (hash : Hash) :
    Except Exc (DLQRecord δ) :=
  storedToRecord py "Encrypted Redis DLQ payload requires a DLQPayloadPolicy." policy
    ((hash.lookup "storage_key").map .key) (decoded hash "record") (fieldsToRecord py hash)

/-! ## Reading a hash -/

variable {py}

theorem hashToRecord_of_not_isEnvelope {policy : Option DLQPayloadPolicy} {hash : Hash}
    (h : isEnvelope (decoded hash "record") = false) :
    hashToRecord py policy hash = fieldsToRecord py hash :=
  storedToRecord_of_not_isEnvelope h

/-- The record that the fields of a hash make. -/
def assembled (hash : Hash) (pipelineId runId stage errorType errorMessage : String) (t : δ)
    (attempt : ℤ) (maxAttempts : Option ℤ) : DLQRecord δ where
  pipelineId := pipelineId
  runId := runId
  stage := stage
  errorType := errorType
  errorMessage := errorMessage
  record := decoded hash "record"
  originalRecord := decoded hash "original_record"
  processedRecord := decoded hash "processed_record"
  source := optionalStr py (textOrNone hash "source")
  checkpoint := decoded hash "checkpoint"
  details := decoded hash "details"
  middleware := optionalStr py (textOrNone hash "middleware")
  sink := optionalStr py (textOrNone hash "sink")
  createdAt := py.withTimezone t
  attempt := attempt
  maxAttempts := maxAttempts
  storageId := (hash.lookup "storage_key").map .key

/-- **A hash is read field by field**, and nothing can go wrong after that. -/
theorem fieldsToRecord_eq (hash : Hash) : fieldsToRecord py hash = (do
    let pipelineId ← field hash "pipeline_id"
    let runId ← field hash "run_id"
    let stage ← field hash "stage"
    let errorType ← field hash "error_type"
    let errorMessage ← field hash "error_message"
    let createdAt ← coerceDatetime py (.str (← field hash "created_at"))
    let attempt ← attemptOf py hash
    let maxAttempts ← maxAttemptsOf py hash
    pure (@assembled δ py hash pipelineId runId stage errorType errorMessage createdAt
      attempt maxAttempts)) := by
  unfold fieldsToRecord hashToPayload
  simp only [bind_assoc, pure_bind]
  refine bind_congr (fun pipelineId => bind_congr (fun runId => bind_congr (fun stage => ?_)))
  refine bind_congr (fun errorType => bind_congr (fun errorMessage => ?_))
  refine bind_congr (fun created => bind_congr (fun t => bind_congr (fun n => ?_)))
  refine bind_congr (fun m => ?_)
  cases m <;>
    simp [payloadToRecord, Payload.item, Payload.value, Json.find, coerceDatetime, int, str,
      optionalInt, assembled, py.fromisoformat_strDatetime, bind, Except.bind, pure, Except.pure,
      Functor.map, Except.map]

/-- A number in a hash. -/
theorem dumps_num_ne (n : ℤ) : Json.dumps (.num n) ≠ "" := by
  intro h
  have hloads := Json.loads_dumps (.num n)
  rw [h] at hloads
  exact absurd hloads nofun

theorem attemptOf_eq {hash : Hash} {n : ℤ}
    (h : hash.lookup "attempt" = some (Json.dumps (.num n))) : attemptOf py hash = .ok n := by
  unfold attemptOf
  rw [h]
  dsimp only
  rw [if_neg (dumps_num_ne n), py.int_str]

/-- **The attempts of a hash are those of its record**, as long as the other fields are
read. -/
theorem fieldsToRecord_insert_attempt {hash : Hash} {r : DLQRecord δ}
    (h : fieldsToRecord py hash = .ok r) (n : ℤ) :
    fieldsToRecord py (hash.insert "attempt" (Json.dumps (.num n)))
      = .ok { r with attempt := n } := by
  have hne : ∀ {name : String}, name ≠ "attempt" →
      (hash.insert "attempt" (Json.dumps (.num n))).lookup name = hash.lookup name :=
    fun hname => AList.lookup_insert_ne hname
  rw [fieldsToRecord_eq] at h
  obtain ⟨pipelineId, hpipelineId, h⟩ := exists_of_bind_eq_ok h
  obtain ⟨runId, hrunId, h⟩ := exists_of_bind_eq_ok h
  obtain ⟨stage, hstage, h⟩ := exists_of_bind_eq_ok h
  obtain ⟨errorType, herrorType, h⟩ := exists_of_bind_eq_ok h
  obtain ⟨errorMessage, herrorMessage, h⟩ := exists_of_bind_eq_ok h
  obtain ⟨created, hcreated, h⟩ := exists_of_bind_eq_ok h
  obtain ⟨t, ht, h⟩ := exists_of_bind_eq_ok h
  obtain ⟨a, ha, h⟩ := exists_of_bind_eq_ok h
  obtain ⟨m, hm, h⟩ := exists_of_bind_eq_ok h
  cases h
  have hfield : ∀ {name : String}, name ≠ "attempt" →
      field (hash.insert "attempt" (Json.dumps (.num n))) name = field hash name := by
    intro name hname
    unfold field
    rw [hne hname]
  have hmax : maxAttemptsOf py (hash.insert "attempt" (Json.dumps (.num n))) = .ok m := by
    rw [← hm]
    unfold maxAttemptsOf
    rw [hne (by decide)]
  have hattempt : attemptOf py (hash.insert "attempt" (Json.dumps (.num n))) = .ok n :=
    attemptOf_eq (AList.lookup_insert hash)
  rw [fieldsToRecord_eq, hfield (by decide), hfield (by decide), hfield (by decide),
    hfield (by decide), hfield (by decide), hfield (by decide), hpipelineId, hrunId, hstage,
    herrorType, herrorMessage, hcreated, hattempt, hmax]
  show (coerceDatetime py (.str created) >>= fun t => _) = _
  rw [ht]
  show Except.ok (@assembled δ py _ _ _ _ _ _ _ _ _) = _
  unfold assembled decoded textOrNone
  simp only [hne (show "record" ≠ "attempt" by decide),
    hne (show "original_record" ≠ "attempt" by decide),
    hne (show "processed_record" ≠ "attempt" by decide),
    hne (show "source" ≠ "attempt" by decide), hne (show "checkpoint" ≠ "attempt" by decide),
    hne (show "details" ≠ "attempt" by decide), hne (show "middleware" ≠ "attempt" by decide),
    hne (show "sink" ≠ "attempt" by decide), hne (show "storage_key" ≠ "attempt" by decide)]

/-! ## What has been written -/

variable (py) in
/-- What is written for the value of a record, as it is read back. -/
def storedValue (policy : Option DLQPayloadPolicy) (r : DLQRecord δ) : Json :=
  ((applied py policy r).value "record").normal

theorem dumps_ne (v : Json) : Json.dumps v ≠ "" := by
  intro h
  have hloads := Json.loads_dumps v
  rw [h] at hloads
  exact absurd hloads nofun

theorem decodeJson_dumps (v : Json) : decodeJson (Json.dumps v) = v.normal := by
  unfold decodeJson
  rw [if_neg (dumps_ne v), Json.loads_dumps]
  rfl

/-- **What is in a hash that a payload was written to.** -/
structure Written (payload : Payload) (mapping : List (String × String)) : Prop where
  required : ∀ name ∈ ["pipeline_id", "run_id", "stage", "error_type", "error_message"],
    ∃ text, Dict.last name mapping = some text
  createdAt : ∃ t, Dict.last "created_at" mapping = some (py.isoformat t)
  attempt : ∃ n, Dict.last "attempt" mapping = some (Json.dumps (.num n))
  maxAttempts : Dict.last "max_attempts" mapping = some ""
    ∨ ∃ n, Dict.last "max_attempts" mapping = some (Json.dumps (.num n))
  record : Dict.last "record" mapping = some (Json.dumps (payload.value "record"))

theorem written_of_payloadToHash {payload : Payload} {mapping : List (String × String)}
    (h : payloadToHash py payload = .ok mapping) : @Written δ py payload mapping := by
  unfold payloadToHash at h
  obtain ⟨pipelineId, _, h⟩ := exists_of_bind_eq_ok h
  obtain ⟨runId, _, h⟩ := exists_of_bind_eq_ok h
  obtain ⟨stage, _, h⟩ := exists_of_bind_eq_ok h
  obtain ⟨errorType, _, h⟩ := exists_of_bind_eq_ok h
  obtain ⟨errorMessage, _, h⟩ := exists_of_bind_eq_ok h
  obtain ⟨created, _, h⟩ := exists_of_bind_eq_ok h
  obtain ⟨t, _, h⟩ := exists_of_bind_eq_ok h
  obtain ⟨n, _, h⟩ := exists_of_bind_eq_ok h
  obtain ⟨m, _, h⟩ := exists_of_bind_eq_ok h
  cases h
  refine ⟨?_, ⟨t, rfl⟩, ⟨n, rfl⟩, ?_, rfl⟩
  · simp [Dict.last]
  · cases m with
    | none => exact .inl rfl
    | some m => exact .inr ⟨m, rfl⟩

/-- The fields of a hash that a record is written to. -/
def hashFields : List String :=
  ["pipeline_id", "run_id", "stage", "error_type", "error_message", "record", "original_record",
    "processed_record", "source", "checkpoint", "details", "middleware", "sink", "created_at",
    "attempt", "max_attempts"]

theorem mem_hashFields_of_payloadToHash {payload : Payload} {mapping : List (String × String)}
    (h : payloadToHash py payload = .ok mapping) : ∀ e ∈ mapping, e.1 ∈ hashFields := by
  unfold payloadToHash at h
  obtain ⟨pipelineId, _, h⟩ := exists_of_bind_eq_ok h
  obtain ⟨runId, _, h⟩ := exists_of_bind_eq_ok h
  obtain ⟨stage, _, h⟩ := exists_of_bind_eq_ok h
  obtain ⟨errorType, _, h⟩ := exists_of_bind_eq_ok h
  obtain ⟨errorMessage, _, h⟩ := exists_of_bind_eq_ok h
  obtain ⟨created, _, h⟩ := exists_of_bind_eq_ok h
  obtain ⟨t, _, h⟩ := exists_of_bind_eq_ok h
  obtain ⟨n, _, h⟩ := exists_of_bind_eq_ok h
  obtain ⟨m, _, h⟩ := exists_of_bind_eq_ok h
  cases h
  simp [hashFields]

/-- **A record is written to its own fields.** -/
theorem mem_hashFields_of_recordToHash {policy : Option DLQPayloadPolicy} {r : DLQRecord δ}
    {mapping : List (String × String)} (h : recordToHash py policy r = .ok mapping) :
    ∀ e ∈ mapping, e.1 ∈ hashFields := by
  unfold recordToHash DLQPayloadPolicy.encryptPayload at h
  obtain ⟨hash, hhash, h⟩ := exists_of_bind_eq_ok h
  have hfields := mem_hashFields_of_payloadToHash hhash
  cases policy with
  | none =>
    cases h
    exact hfields
  | some policy =>
    dsimp only at h
    split at h
    next hmode =>
      cases h
      intro e he
      rcases List.mem_append.1 he with he | he
      · exact hfields e he
      · simp only [encryptedFields, List.mem_cons, List.not_mem_nil, or_false] at he
        rcases he with rfl | rfl | rfl | rfl | rfl <;> simp [hashFields]
    next =>
      cases h
      exact hfields

/-- **A payload that was written is read**, if its fields are looked at. -/
theorem exists_fieldsToRecord_eq {payload : Payload} {mapping : List (String × String)}
    (h : @Written δ py payload mapping) {hash : Hash}
    (hhash : ∀ name text, Dict.last name mapping = some text → hash.lookup name = some text) :
    ∃ r, fieldsToRecord py hash = .ok r := by
  have hfield : ∀ name ∈ ["pipeline_id", "run_id", "stage", "error_type", "error_message"],
      ∃ text, field hash name = .ok text := by
    intro name hname
    obtain ⟨text, htext⟩ := h.required name hname
    refine ⟨text, ?_⟩
    unfold field
    rw [hhash name text htext]
    rfl
  obtain ⟨pipelineId, hpipelineId⟩ := hfield "pipeline_id" (by decide)
  obtain ⟨runId, hrunId⟩ := hfield "run_id" (by decide)
  obtain ⟨stage, hstage⟩ := hfield "stage" (by decide)
  obtain ⟨errorType, herrorType⟩ := hfield "error_type" (by decide)
  obtain ⟨errorMessage, herrorMessage⟩ := hfield "error_message" (by decide)
  obtain ⟨t, ht⟩ := h.createdAt
  have hcreated : field hash "created_at" = .ok (py.isoformat t) := by
    unfold field
    rw [hhash _ _ ht]
    rfl
  obtain ⟨n, hn⟩ := h.attempt
  have hattempt : attemptOf py hash = .ok n := attemptOf_eq (hhash _ _ hn)
  obtain ⟨m, hm⟩ : ∃ m, maxAttemptsOf py hash = .ok m := by
    unfold maxAttemptsOf
    rcases h.maxAttempts with hmax | ⟨m, hmax⟩
    · rw [hhash _ _ hmax]
      exact ⟨none, rfl⟩
    · rw [hhash _ _ hmax]
      dsimp only
      rw [if_neg (dumps_ne _), py.int_str]
      exact ⟨some m, rfl⟩
  rw [fieldsToRecord_eq, hpipelineId, hrunId, hstage, herrorType, herrorMessage, hcreated,
    hattempt, hm]
  show ∃ r, (py.fromisoformat (py.isoformat t) >>= fun t => _) = .ok r
  rw [py.fromisoformat_isoformat]
  exact ⟨_, rfl⟩

/-- Where nothing is encrypted, the hash is that of the payload. -/
theorem written_of_recordToHash {policy : Option DLQPayloadPolicy} {r : DLQRecord δ}
    {mapping : List (String × String)} (hencrypts : encrypts policy = false)
    (h : recordToHash py policy r = .ok mapping) :
    @Written δ py (applied py policy r) mapping := by
  unfold recordToHash at h
  obtain ⟨hash, hhash, h⟩ := exists_of_bind_eq_ok h
  cases policy with
  | none =>
    cases h
    exact written_of_payloadToHash hhash
  | some policy =>
    have hmode : policy.mode ≠ .encrypted := of_decide_eq_false hencrypts
    dsimp only at h
    rw [if_neg hmode] at h
    cases h
    exact written_of_payloadToHash hhash

/-- Where the payload is encrypted, the envelope is in the field of the record. -/
theorem record_of_recordToHash {policy : DLQPayloadPolicy} (hmode : policy.mode = .encrypted)
    {r : DLQRecord δ} {mapping : List (String × String)}
    (h : recordToHash py (some policy) r = .ok mapping) :
    Dict.last "record" mapping = some (Json.dumps (.obj (policy.envelope
      (policy.cipher.encrypt (Json.dumps (.obj (recordToPayload py r))))))) := by
  have happlied : applied py (some policy) r = recordToPayload py r := by
    unfold applied DLQPayloadPolicy.apply
    dsimp only
    rw [hmode]
  unfold recordToHash DLQPayloadPolicy.encryptPayload at h
  obtain ⟨hash, hhash, h⟩ := exists_of_bind_eq_ok h
  dsimp only at h
  rw [if_pos hmode, if_pos hmode, happlied] at h
  cases h
  rw [Dict.last_append]
  rfl

/-- What is decrypted makes a record. -/
theorem exists_record_of_normal (sid : Option StorageId) (r : DLQRecord δ) :
    ∃ r', payloadToRecord py sid (Json.normalMembers (recordToPayload py r)) = .ok r'
      ∧ r'.attempt = r.attempt ∧ r'.storageId = sid :=
  @exists_payloadToRecord_eq δ py textOr id (fun t => .str (py.isoformat t)) r r.createdAt
    (py.fromisoformat_isoformat r.createdAt) sid

/-- **An encrypted record is read from its envelope**, whatever the other fields are. -/
theorem hashToRecord_of_encrypted {policy : DLQPayloadPolicy} (hmode : policy.mode = .encrypted)
    {payload : Payload} {hash : Hash} (h : hash.lookup "record" = some (Json.dumps (.obj
      (policy.envelope (policy.cipher.encrypt (Json.dumps (.obj payload))))))) :
    hashToRecord py (some policy) hash
      = payloadToRecord py ((hash.lookup "storage_key").map .key)
        (Json.normalMembers payload) := by
  have hdecoded : decoded hash "record" = .obj
      (policy.envelope (policy.cipher.encrypt (Json.dumps (.obj payload)))) := by
    unfold decoded
    rw [h]
    dsimp only
    rw [decodeJson_dumps, Json.normal, normalMembers_envelope]
  unfold hashToRecord
  rw [hdecoded, storedToRecord_of_encrypted hmode]

/-- Nothing else can read an envelope. -/
theorem hashToRecord_ne_ok {policy : Option DLQPayloadPolicy} (hencrypts : encrypts policy = false)
    {hash : Hash} (h : isEnvelope (decoded hash "record") = true) (r : DLQRecord δ) :
    hashToRecord py policy hash ≠ .ok r :=
  storedToRecord_ne_ok hencrypts h r

theorem decoded_record {policy : Option DLQPayloadPolicy} {r : DLQRecord δ}
    {mapping : List (String × String)} (hencrypts : encrypts policy = false)
    (h : recordToHash py policy r = .ok mapping) {hash : Hash}
    (hhash : ∀ name text, Dict.last name mapping = some text → hash.lookup name = some text) :
    decoded hash "record" = storedValue py policy r := by
  unfold decoded storedValue
  rw [hhash _ _ (written_of_recordToHash hencrypts h).record]
  exact decodeJson_dumps _

/-- **When a record can be read back** from the hash it was written to: always if it is
encrypted, and else if its value does not look like an envelope. -/
theorem hashToRecord_isOk_iff {policy : Option DLQPayloadPolicy} {r : DLQRecord δ}
    {mapping : List (String × String)} (h : recordToHash py policy r = .ok mapping) {hash : Hash}
    (hhash : ∀ name text, Dict.last name mapping = some text → hash.lookup name = some text) :
    (∃ r', hashToRecord py policy hash = .ok r')
      ↔ encrypts policy = true ∨ isEnvelope (storedValue py policy r) = false := by
  cases hencrypts : encrypts policy with
  | false =>
    have hdecoded := decoded_record hencrypts h hhash
    cases henvelope : isEnvelope (storedValue py policy r) with
    | false =>
      rw [hashToRecord_of_not_isEnvelope (by rw [hdecoded, henvelope])]
      exact ⟨fun _ => .inr rfl,
        fun _ => exists_fieldsToRecord_eq (written_of_recordToHash hencrypts h) hhash⟩
    | true =>
      constructor
      · rintro ⟨r', hr'⟩
        exact absurd hr' (hashToRecord_ne_ok hencrypts (by rw [hdecoded, henvelope]) r')
      · rintro (hfalse | hfalse) <;> cases hfalse
  | true =>
    refine ⟨fun _ => .inl rfl, fun _ => ?_⟩
    cases policy with
    | none => cases hencrypts
    | some policy =>
      have hmode : policy.mode = .encrypted := of_decide_eq_true hencrypts
      rw [hashToRecord_of_encrypted hmode (hhash _ _ (record_of_recordToHash hmode h))]
      obtain ⟨r', hr', _⟩ := exists_record_of_normal _ r
      exact ⟨r', hr'⟩

/-- The fields of a record, where nothing is redacted. -/
def clearHash (py : Python δ) (r : DLQRecord δ) : List (String × String) :=
  [("pipeline_id", r.pipelineId), ("run_id", r.runId), ("stage", r.stage),
    ("error_type", r.errorType), ("error_message", r.errorMessage),
    ("record", Json.dumps r.record), ("original_record", Json.dumps r.originalRecord),
    ("processed_record", Json.dumps r.processedRecord), ("source", r.source.getD ""),
    ("checkpoint", Json.dumps r.checkpoint), ("details", Json.dumps r.details),
    ("middleware", r.middleware.getD ""), ("sink", r.sink.getD ""),
    ("created_at", py.isoformat r.createdAt), ("attempt", Json.dumps (.num r.attempt)),
    ("max_attempts", match r.maxAttempts with
      | none => ""
      | some n => Json.dumps (.num n))]

theorem payloadToHash_recordToPayload (r : DLQRecord δ) :
    payloadToHash py (recordToPayload py r) = .ok (clearHash py r) := by
  have htext : ∀ text, strOr py (textOr text) = text.getD "" := by
    intro text
    cases text <;> rfl
  unfold recordToPayload payloadOf clearHash
  cases hm : r.maxAttempts <;>
    simp [payloadToHash, Payload.item, Payload.value, Json.find, coerceDatetime, int, str,
      optionalInt, htext, py.fromisoformat_isoformat, bind, Except.bind, pure, Except.pure,
      Functor.map, Except.map]

/-- What the policy leaves as it is. -/
theorem applied_eq {policy : Option DLQPayloadPolicy} (hmode : ∀ p ∈ policy, p.mode ≠ .redacted)
    (r : DLQRecord δ) : applied py policy r = recordToPayload py r := by
  unfold applied
  cases policy with
  | none => rfl
  | some policy =>
    unfold DLQPayloadPolicy.apply
    dsimp only
    cases hp : policy.mode with
    | raw => rfl
    | redacted => exact absurd hp (hmode policy rfl)
    | encrypted => rfl

/-- The fields that are written. -/
def hashOf (py : Python δ) (policy : Option DLQPayloadPolicy) (r : DLQRecord δ) :
    List (String × String) :=
  match policy with
  | none => clearHash py r
  | some policy =>
    if policy.mode = .encrypted then
      clearHash py r ++ encryptedFields
        (policy.envelope (policy.cipher.encrypt (Json.dumps (.obj (recordToPayload py r)))))
    else clearHash py r

/-- **Without redaction every record has a hash.** -/
theorem recordToHash_eq {policy : Option DLQPayloadPolicy}
    (hmode : ∀ p ∈ policy, p.mode ≠ .redacted) (r : DLQRecord δ) :
    recordToHash py policy r = .ok (hashOf py policy r) := by
  unfold recordToHash hashOf
  rw [applied_eq hmode, payloadToHash_recordToPayload]
  cases policy with
  | none => rfl
  | some policy =>
    have happlied := @applied_eq δ py (some policy) hmode r
    unfold DLQPayloadPolicy.encryptPayload
    dsimp only
    rw [happlied]
    by_cases hp : policy.mode = .encrypted
    · simp only [if_pos hp]
      rfl
    · simp only [if_neg hp]
      rfl

theorem exists_recordToHash_eq {policy : Option DLQPayloadPolicy}
    (hmode : ∀ p ∈ policy, p.mode ≠ .redacted) (r : DLQRecord δ) :
    ∃ mapping, recordToHash py policy r = .ok mapping :=
  ⟨_, recordToHash_eq hmode r⟩

/-- A hash with other attempts is read as it was, except for them. -/
theorem exists_hashToRecord_insert_attempt {policy : Option DLQPayloadPolicy} {hash : Hash}
    {r : DLQRecord δ} (h : hashToRecord py policy hash = .ok r) (n : ℤ) :
    ∃ r', hashToRecord py policy (hash.insert "attempt" (Json.dumps (.num n))) = .ok r' := by
  have hdecoded : decoded (hash.insert "attempt" (Json.dumps (.num n))) "record"
      = decoded hash "record" := by
    unfold decoded
    rw [AList.lookup_insert_ne (by decide)]
  cases henvelope : isEnvelope (decoded hash "record") with
  | false =>
    rw [hashToRecord_of_not_isEnvelope henvelope] at h
    rw [hashToRecord_of_not_isEnvelope (by rw [hdecoded, henvelope])]
    exact ⟨_, fieldsToRecord_insert_attempt h n⟩
  | true =>
    refine ⟨r, ?_⟩
    rw [← h]
    obtain ⟨members, hmembers⟩ := exists_of_isEnvelope henvelope
    rw [hmembers] at henvelope
    unfold hashToRecord
    rw [hdecoded, hmembers, storedToRecord_of_isEnvelope henvelope,
      storedToRecord_of_isEnvelope henvelope, AList.lookup_insert_ne (by decide)]

/-- A hash without its required fields is not read. -/
theorem hashToRecord_ne_ok_of_none {policy : Option DLQPayloadPolicy} {hash : Hash}
    (hrecord : hash.lookup "record" = none) (hpipeline : hash.lookup "pipeline_id" = none)
    (r : DLQRecord δ) : hashToRecord py policy hash ≠ .ok r := by
  have hdecoded : decoded hash "record" = .null := by
    unfold decoded
    rw [hrecord]
  rw [hashToRecord_of_not_isEnvelope (by rw [hdecoded]; rfl), fieldsToRecord_eq]
  have hfield : field hash "pipeline_id" = .error (.exception "KeyError" "pipeline_id") := by
    unfold field
    rw [hpipeline]
    rfl
  rw [hfield]
  exact nofun

end RedisPayloads

end Dlq

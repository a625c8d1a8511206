import AgoraPlugins.Dlq.Policy

/-!
# DLQ records as Kafka messages

A record is a message with an envelope around its payload: what is done, the key the record
is stored under, and the payload or its ciphertext. The last message under a key says what
is stored, and a `delete` says that nothing is.

The key is taken from the record if it has one, and made once otherwise: by the function
that a sink is given, or from the fields of the record and a fresh text. A message without
an envelope is an older one, whose key is made from its payload.

A message is taken as the text it is in UTF-8.
-/

namespace Dlq

namespace KafkaPayloads

variable {δ : Type} (py : Python δ)

/-- `serialize_json`. -/
def serializeJson : Json → Json
  | .null => .null
  | v => (Json.loads (Json.dumps v)).getD .null

/-- `record_to_payload`. -/
def recordToPayload (policy : Option DLQPayloadPolicy) (r : DLQRecord δ) : Payload :=
  let payload := payloadOf optional serializeJson (fun t => .str (py.isoformat t)) r
  match policy with
  | none => payload
  | some policy => policy.apply py payload

/-- The time of creation by its text: `str(payload["created_at"])`. -/
def createdAtText (m : String × Json) : String × Json :=
  if m.1 = "created_at" then (m.1, .str (str py m.2)) else m

/-- `payload_to_record`. -/
def payloadToRecord (payload : Payload) : Except Exc (DLQRecord δ) :=
  Dlq.payloadToRecord py none (payload.map (createdAtText py))

/-! ## Keys -/

/-- What a `key_fn` gives. -/
inductive KeyValue where
  | text (s : String)
  | bytes (b : ByteArray)

/-- `value.hex()`. -/
def hex (b : ByteArray) : String :=
  String.ofList (b.data.toList.flatMap (fun x =>
    [Nat.digitChar (x.toNat / 16), Nat.digitChar (x.toNat % 16)]))

/-- `storage_key_from_value`. -/
def storageKeyFromValue : KeyValue → String
  | .text s => s
  | .bytes b => (String.fromUTF8? b).getD (hex b)

/-- `default_storage_key`, with the text that `uuid4` gives. -/
def defaultStorageKey (uuid : String) (r : DLQRecord δ) : String :=
  r.pipelineId ++ ":" ++ r.runId ++ ":" ++ r.stage ++ ":" ++ py.isoformat r.createdAt ++ ":" ++ uuid

/-- `legacy_storage_key`, with the SHA-256 of the compact text of a payload. -/
def legacyStorageKey (digest : Payload → String) (r : DLQRecord δ) : String :=
  r.pipelineId ++ ":" ++ r.runId ++ ":" ++ r.stage ++ ":" ++ py.isoformat r.createdAt ++ ":"
    ++ digest (recordToPayload py none r)

/-- `record_storage_key`. -/
def recordStorageKey (keyFn : Option (DLQRecord δ → KeyValue)) (uuid : String)
    (r : DLQRecord δ) : String :=
  let made := match keyFn with
    | none => defaultStorageKey py uuid r
    | some f => storageKeyFromValue (f r)
  match r.storageId with
  | some (.key text) => if text = "" then made else text
  | some (.row _) => made
  | none => made

/-! ## Envelopes -/

/-- `encode_dlq_envelope`. -/
def encodeDlqEnvelope (storageKey operation : String) (r : Option (DLQRecord δ))
    (policy : Option DLQPayloadPolicy) : Except Exc Payload :=
  let envelope := [("op", .str operation), ("storage_key", .str storageKey)]
  match r with
  | none => pure envelope
  | some r =>
    match policy with
    | none => pure (envelope ++ [("payload", .obj (recordToPayload py none r))])
    | some policy =>
      if policy.mode = .encrypted then do
        pure (envelope ++ (← policy.encryptPayload (recordToPayload py (some policy) r)))
      else pure (envelope ++ [("payload", .obj (recordToPayload py (some policy) r))])

/-- `decode_stored_payload`. What is stored in clear is a dict, or else it fails where it is
read. -/
def decodeStoredPayload (policy : Option DLQPayloadPolicy) (payload : Payload) :
    Except Exc (Option Payload) :=
  match Json.find "payload" payload with
  | some .null => pure none
  | some (.obj stored) => pure (some stored)
  | some _ => throw (.exception "TypeError" "string indices must be integers")
  | none =>
    if isEnvelope (.obj payload) then
      match policy with
      | none => throw (.exception "ValueError"
          "Encrypted Kafka DLQ payload requires a DLQPayloadPolicy.")
      | some policy => some <$> policy.decryptPayload py payload
    else pure none

/-- A record with the key it is stored under. -/
def keyed (storageKey : String) (r : DLQRecord δ) : DLQRecord δ :=
  { r with storageId := some (.key storageKey) }

/-- What a message says, with the record it has. -/
def decoded (operation storageKey : String) :
    Option Payload → Except Exc (String × String × Option (DLQRecord δ))
  | none => pure (operation, storageKey, none)
  | some payload => do
    let r ← payloadToRecord py payload
    pure (operation, storageKey, some (keyed storageKey r))

/-- **`decode_dlq_envelope`**: what is done, under which key, and with which record. -/
def decodeDlqEnvelope (digest : Payload → String) (policy : Option DLQPayloadPolicy)
    (text : String) : Except Exc (String × String × Option (DLQRecord δ)) :=
  match Json.loads text with
  | some (.obj members) =>
    match Json.find "op" members with
    | some op => do
      let storageKey ← Payload.item members "storage_key"
      let stored ← decodeStoredPayload py policy members
      decoded py (str py op) (str py storageKey) stored
    | none => do
      let r ← payloadToRecord py members
      let storageKey := legacyStorageKey py digest r
      pure ("put", storageKey, some (keyed storageKey r))
  | some _ => throw (.exception "TypeError" "argument is not iterable")
  | none => throw (.exception "JSONDecodeError" text)

/-! ## The codec of the sink -/

/-- **`KafkaDLQSinkCodec`.** -/
structure KafkaDLQSinkCodec (δ : Type) where
  keyFn : Option (DLQRecord δ → KeyValue)
  payloadPolicy : Option DLQPayloadPolicy

/-- `serialize`. -/
def serialize (envelope : Payload) : String := Json.dumps (.obj envelope)

variable (codec : KafkaDLQSinkCodec δ)

/-- **`build_upsert_envelope`**, which gives the record its key. -/
def buildUpsertEnvelope (uuid : String) (r : DLQRecord δ) : Except Exc (DLQRecord δ × Payload) := do
  let storageKey := recordStorageKey py codec.keyFn uuid r
  let envelope ← encodeDlqEnvelope py storageKey "put" (some (keyed storageKey r))
    codec.payloadPolicy
  pure (keyed storageKey r, envelope)

/-- **`build_delete_envelope`.** -/
def buildDeleteEnvelope (uuid : String) (r : DLQRecord δ) : Except Exc (DLQRecord δ × Payload) := do
  let storageKey := recordStorageKey py codec.keyFn uuid r
  let envelope ← encodeDlqEnvelope py storageKey "delete" none none
  pure (keyed storageKey r, envelope)

/-! ## What is read of a message -/

variable {py} {codec}

/-- Values as JSON has them. -/
def normalized (r : DLQRecord δ) : DLQRecord δ :=
  { r with
    record := r.record.normal
    originalRecord := r.originalRecord.normal
    processedRecord := r.processedRecord.normal
    checkpoint := r.checkpoint.normal
    details := r.details.normal }

theorem serializeJson_eq (v : Json) : serializeJson v = v.normal := by
  have hloads : ∀ v : Json, (Json.loads (Json.dumps v)).getD .null = v.normal := by
    intro v
    rw [Json.loads_dumps]
    rfl
  cases v with
  | null => rfl
  | bool b => exact hloads (.bool b)
  | num n => exact hloads (.num n)
  | float x => exact hloads (.float x)
  | str s => exact hloads (.str s)
  | other text => exact hloads (.other text)
  | arr items => exact hloads (.arr items)
  | obj members => exact hloads (.obj members)

/-- Bytes in UTF-8 are those of the text they give. -/
theorem fromUTF8?_eq_some_iff {b : ByteArray} {s : String} :
    String.fromUTF8? b = some s ↔ b = s.toByteArray := by
  unfold String.fromUTF8?
  constructor
  · intro h
    split at h
    next => rw [← Option.some.inj h]; rfl
    next => cases h
  · rintro rfl
    rw [dif_pos s.isValidUTF8]
    rfl

/-- **The payload of a record makes the record**, with its values as JSON has them. -/
theorem payloadToRecord_normal (r : DLQRecord δ) :
    payloadToRecord py (Json.normalMembers (recordToPayload py none r))
      = .ok { normalized r with storageId := none } := by
  have htext : ∀ text, optionalStr py (optional text).normal = text := by
    intro text
    cases text <;> rfl
  have hmap : (Json.normalMembers (recordToPayload py none r)).map (createdAtText py)
      = Json.normalMembers
        (payloadOf optional serializeJson (fun t => .str (py.isoformat t)) r) := rfl
  have hpayload := @payloadToRecord_payloadOf δ py optional serializeJson
    (fun t => .str (py.isoformat t)) r _ (py.fromisoformat_isoformat r.createdAt) none
  simp only [serializeJson_eq, Json.normal_normal, htext] at hpayload
  unfold payloadToRecord
  rw [hmap]
  exact hpayload

/-- The values of a record that is read are in normal form. -/
theorem normal_of_payloadToRecord {payload : Payload} {r : DLQRecord δ}
    (h : payloadToRecord py payload = .ok r) (hnormal : Json.normalMembers payload = payload) :
    ∀ v ∈ r.values, v.normal = v := by
  refine Dlq.normal_of_payloadToRecord h ?_
  clear h
  have htext : ∀ m : String × Json, (m.1, m.2.normal) = m →
      ((createdAtText py m).1, (createdAtText py m).2.normal) = createdAtText py m := by
    intro m hm
    unfold createdAtText
    split
    next => rfl
    next => exact hm
  induction payload with
  | nil => rfl
  | cons m payload ih =>
    obtain ⟨hm, hpayload⟩ := List.cons.inj hnormal
    exact congrArg₂ List.cons (htext m hm) (ih hpayload)

theorem normal_of_decodeStoredPayload {policy : Option DLQPayloadPolicy} {payload stored : Payload}
    (h : decodeStoredPayload py policy payload = .ok (some stored))
    (hnormal : Json.normalMembers payload = payload) : Json.normalMembers stored = stored := by
  unfold decodeStoredPayload at h
  split at h
  next => cases h
  next hfind =>
    cases h
    exact Json.obj.inj (Json.normal_of_find hnormal hfind)
  next => cases h
  next =>
    split at h
    next =>
      cases policy with
      | none => cases h
      | some policy =>
        obtain ⟨decrypted, hdecrypt, hstored⟩ := exists_of_bind_eq_ok
          (show (policy.decryptPayload py payload >>= fun decrypted => pure (some decrypted)) = _
            from h)
        cases hstored
        exact normal_of_decryptPayload hdecrypt
    next => cases h

/-- What is read of a message, once its payload is. -/
theorem decodeDlqEnvelope_eq {digest : Payload → String} {policy : Option DLQPayloadPolicy}
    {envelope : Payload} {operation storageKey : String} {stored : Option Payload}
    (hop : Json.find "op" (Json.normalMembers envelope) = some (.str operation))
    (hkey : Json.find "storage_key" (Json.normalMembers envelope) = some (.str storageKey))
    (hstored : decodeStoredPayload py policy (Json.normalMembers envelope) = .ok stored) :
    decodeDlqEnvelope py digest policy (serialize envelope)
      = decoded py operation storageKey stored := by
  unfold decodeDlqEnvelope serialize Payload.item
  rw [Json.loads_dumps, Json.normal]
  dsimp only
  rw [hop, hkey]
  dsimp only [bind, Except.bind, pure, Except.pure]
  rw [hstored]
  rfl

/-- **What is read has the key it is stored under**, and values in normal form. -/
theorem of_decodeDlqEnvelope {digest : Payload → String} {policy : Option DLQPayloadPolicy}
    {text operation storageKey : String} {r : DLQRecord δ}
    (h : decodeDlqEnvelope py digest policy text = .ok (operation, storageKey, some r)) :
    r.storageId = some (.key storageKey) ∧ ∀ v ∈ r.values, v.normal = v := by
  unfold decodeDlqEnvelope at h
  split at h
  next members hloads =>
    have hmembers : Json.normalMembers members = members :=
      Json.obj.inj (Json.normal_of_loads hloads)
    split at h
    next =>
      obtain ⟨key, _, h⟩ := exists_of_bind_eq_ok h
      obtain ⟨stored, hstored, h⟩ := exists_of_bind_eq_ok h
      cases stored with
      | none => cases h
      | some payload =>
        obtain ⟨r', hr, h⟩ := exists_of_bind_eq_ok h
        cases h
        have hnormal := normal_of_payloadToRecord hr (normal_of_decodeStoredPayload hstored hmembers)
        exact ⟨rfl, hnormal⟩
    next =>
      obtain ⟨r', hr, h⟩ := exists_of_bind_eq_ok h
      cases h
      have hnormal := normal_of_payloadToRecord hr hmembers
      exact ⟨rfl, hnormal⟩
  next => cases h
  next => cases h

/-- The message around a ciphertext: what is found in it, and that JSON keeps it. -/
theorem find_sealed (policy : DLQPayloadPolicy) (operation storageKey ciphertext : String) :
    let sealed := [("op", .str operation), ("storage_key", .str storageKey)]
      ++ policy.envelope ciphertext
    Json.normalMembers sealed = sealed
      ∧ Json.find "op" sealed = some (.str operation)
      ∧ Json.find "storage_key" sealed = some (.str storageKey)
      ∧ Json.find "payload" sealed = none
      ∧ Json.find "payload_ciphertext" sealed = some (.str ciphertext)
      ∧ isEnvelope (.obj sealed) = true := by
  unfold DLQPayloadPolicy.envelope isEnvelope
  cases policy.encryptionKeyId <;> simp [Json.normalMembers, Json.normal, Json.find]

/-- An encrypted payload is decrypted. -/
theorem decodeStoredPayload_sealed {policy : DLQPayloadPolicy} (hmode : policy.mode = .encrypted)
    {payload members : Payload} (hclear : Json.find "payload" members = none)
    (henvelope : isEnvelope (.obj members) = true) (hciphertext : Json.find "payload_ciphertext" members
      = some (.str (policy.cipher.encrypt (Json.dumps (.obj payload))))) :
    decodeStoredPayload py (some policy) members = .ok (some (Json.normalMembers payload)) := by
  unfold decodeStoredPayload
  rw [hclear]
  dsimp only
  rw [if_pos henvelope, decryptPayload_of_find hmode hciphertext]
  rfl

/-- The payload under a policy that does not redact. -/
theorem recordToPayload_of_ne {policy : DLQPayloadPolicy} (hmode : policy.mode ≠ .redacted)
    (r : DLQRecord δ) : recordToPayload py (some policy) r = recordToPayload py none r := by
  unfold recordToPayload DLQPayloadPolicy.apply
  dsimp only
  cases hp : policy.mode with
  | raw => rfl
  | redacted => exact absurd hp hmode
  | encrypted => rfl

theorem decoded_put (storageKey : String) (r : DLQRecord δ) :
    decoded py "put" storageKey (some (Json.normalMembers (recordToPayload py none r)))
      = .ok ("put", storageKey, some (keyed storageKey (normalized r))) := by
  unfold decoded
  dsimp only
  rw [payloadToRecord_normal]
  rfl

/-- A put in clear is read back by anyone. -/
theorem decodeDlqEnvelope_clear (digest : Payload → String) (policy : Option DLQPayloadPolicy)
    (storageKey : String) (r : DLQRecord δ) :
    decodeDlqEnvelope py digest policy (serialize ([("op", .str "put"),
        ("storage_key", .str storageKey)] ++ [("payload", .obj (recordToPayload py none r))]))
      = .ok ("put", storageKey, some (keyed storageKey (normalized r))) := by
  rw [← decoded_put]
  exact @decodeDlqEnvelope_eq δ py digest policy _ _ _ (some _) rfl rfl rfl

/-- **A put is read back**, in clear and encrypted. -/
theorem decodeDlqEnvelope_put (digest : Payload → String) {policy : Option DLQPayloadPolicy}
    (hmode : ∀ p ∈ policy, p.mode ≠ .redacted) (storageKey : String) (r : DLQRecord δ) :
    ∃ envelope, encodeDlqEnvelope py storageKey "put" (some r) policy = .ok envelope
      ∧ decodeDlqEnvelope py digest policy (serialize envelope)
        = .ok ("put", storageKey, some (keyed storageKey (normalized r))) := by
  unfold encodeDlqEnvelope
  cases policy with
  | none => exact ⟨_, rfl, decodeDlqEnvelope_clear digest none storageKey r⟩
  | some policy =>
    dsimp only
    rw [recordToPayload_of_ne (hmode policy rfl)]
    by_cases hp : policy.mode = .encrypted
    · obtain ⟨hnormal, hop, hkey, hpayload, hciphertext, henvelope⟩ := find_sealed policy "put"
        storageKey (policy.cipher.encrypt (Json.dumps (.obj (recordToPayload py none r))))
      have hstored := @decodeStoredPayload_sealed δ py policy hp _ _ hpayload henvelope hciphertext
      unfold DLQPayloadPolicy.encryptPayload
      rw [if_pos hp, if_pos hp]
      refine ⟨_, rfl, ?_⟩
      rw [← hnormal] at hop hkey hstored
      rw [← decoded_put]
      exact decodeDlqEnvelope_eq hop hkey hstored
    · rw [if_neg hp]
      exact ⟨_, rfl, decodeDlqEnvelope_clear digest _ storageKey r⟩

/-- **A delete is read back.** -/
theorem decodeDlqEnvelope_delete (digest : Payload → String) (policy : Option DLQPayloadPolicy)
    (storageKey : String) :
    ∃ envelope, @encodeDlqEnvelope δ py storageKey "delete" none none = .ok envelope
      ∧ @decodeDlqEnvelope δ py digest policy (serialize envelope)
        = .ok ("delete", storageKey, none) :=
  ⟨_, rfl, @decodeDlqEnvelope_eq δ py digest policy _ _ _ none rfl rfl rfl⟩

end KafkaPayloads

end Dlq

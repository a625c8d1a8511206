import AgoraPlugins.Dlq.Record

/-!
# The payload policy

A payload is stored as it is, with the values of sensitive fields and headers
replaced, or encrypted. Redaction walks through dicts and lists: a field whose name
is sensitive loses its value whatever it is, and the items of a list called `headers`
are looked at by their own key. Encryption makes of the whole payload an envelope with
the ciphertext.

The cipher is a parameter that undoes itself. Its bytes are taken as the base64 text
that stands in the envelope.
-/

namespace Dlq

/-- An encryptor with its decryptor. -/
structure Cipher where
  encrypt : String → String
  decrypt : String → Except Exc String
  decrypt_encrypt : ∀ text, decrypt (encrypt text) = .ok text

inductive PolicyMode where
  | raw
  | redacted
  | encrypted
  deriving DecidableEq

/-- `_COMMON_SENSITIVE_FIELDS`. -/
def commonSensitiveFields : List String :=
  ["access_token", "api_key", "authorization", "client_secret", "cookie", "password",
    "private_key", "refresh_token", "secret", "set-cookie", "token", "x-api-key", "x_api_key"]

/-- `_COMMON_SENSITIVE_HEADERS`. -/
def commonSensitiveHeaders : List String :=
  ["api-key", "authorization", "cookie", "proxy-authorization", "set-cookie", "x-api-key",
    "x-auth-token"]

/-- **`DLQPayloadPolicy`.** In encrypted mode there is a cipher. -/
structure DLQPayloadPolicy where
  mode : PolicyMode := .raw
  redactFields : List String := []
  redactHeaders : List String := []
  redactedValue : String := "[REDACTED]"
  includeCommonSensitiveNames : Bool := true
  cipher : Cipher
  encryptionAlgorithm : String := "user"
  encryptionKeyId : Option String := none

variable {δ : Type} (py : Python δ)

/-! ## Redaction -/

section Redaction

variable (headers : List String) (redactedValue : String)

mutual
/-- `_redact_value`, below a key in normal form. -/
def redactValue (fields : List String) (parentKey : Option String) : Json → Json
  | .obj members => .obj (redactMembers fields members)
  | .arr items =>
    if parentKey = some "headers" then .arr (redactHeaderItems items)
    else .arr (redactItems fields parentKey items)
  | .null => .null
  | .bool b => .bool b
  | .num n => .num n
  | .float x => .float x
  | .str s => .str s
  | .other text => .other text

def redactMembers (fields : List String) : List (String × Json) → List (String × Json)
  | [] => []
  | (k, v) :: members =>
    (k, if py.normalize k ∈ fields then .str redactedValue
      else redactValue fields (some (py.normalize k)) v) :: redactMembers fields members

def redactItems (fields : List String) (parentKey : Option String) : List Json → List Json
  | [] => []
  | v :: items => redactValue fields parentKey v :: redactItems fields parentKey items

/-- `_redact_header` of each item: a sensitive one gets another value, and any other is
looked into for headers only. -/
def redactHeaderItems : List Json → List Json
  | [] => []
  | .obj members :: items =>
    (if py.normalize (str py ((Json.find "key" members).getD (.str ""))) ∈ headers then
      .obj (Json.assign "value"
        (.obj [("data", .str redactedValue), ("encoding", .str "redacted")]) members)
    else .obj (redactMembers [] members)) :: redactHeaderItems items
  | v :: items => v :: redactHeaderItems items
end

end Redaction

namespace DLQPayloadPolicy

variable (policy : DLQPayloadPolicy)

/-- The names of fields, in normal form. -/
def fieldNames : List String :=
  policy.redactFields.map py.normalize
    ++ if policy.includeCommonSensitiveNames then commonSensitiveFields else []

/-- The names of headers, in normal form. -/
def headerNames : List String :=
  policy.redactHeaders.map py.normalize
    ++ if policy.includeCommonSensitiveNames then commonSensitiveHeaders else []

/-- **`apply`.** -/
def apply (payload : Payload) : Payload :=
  match policy.mode with
  | .raw | .encrypted => payload
  | .redacted => redactMembers py (policy.headerNames py) policy.redactedValue
      (policy.fieldNames py) payload

/-- The envelope around a ciphertext. -/
def envelope (ciphertext : String) : Payload :=
  [("payload_algorithm", .str policy.encryptionAlgorithm),
    ("payload_ciphertext", .str ciphertext), ("payload_encoding", .str "encrypted")]
    ++ match policy.encryptionKeyId with
      | none => []
      | some keyId => [("payload_key_id", .str keyId)]

/-- `encrypt_payload`. -/
def encryptPayload (payload : Payload) : Except Exc Payload :=
  if policy.mode = .encrypted then
    pure (policy.envelope (policy.cipher.encrypt (Json.dumps (.obj payload))))
  else
    throw (.exception "ValueError" "DLQPayloadPolicy.encrypt_payload requires mode='encrypted'.")

/-- `decrypt_payload`. -/
def decryptPayload (encrypted : Payload) : Except Exc Payload :=
  if policy.mode = .encrypted then do
    let ciphertext ← encrypted.item "payload_ciphertext"
    let plaintext ← policy.cipher.decrypt (str py ciphertext)
    match Json.loads plaintext with
    | some (.obj payload) => pure payload
    | some _ => throw (.exception "TypeError" "string indices must be integers")
    | none => throw (.exception "JSONDecodeError" plaintext)
  else
    throw (.exception "ValueError" "Encrypted DLQ payload requires mode='encrypted' policy.")

end DLQPayloadPolicy

/-- A cipher that turns a text around. -/
def Cipher.reverse : Cipher where
  encrypt text := String.ofList text.toList.reverse
  decrypt text := .ok (String.ofList text.toList.reverse)
  decrypt_encrypt text := by simp

/-- A policy that encrypts with it. -/
def DLQPayloadPolicy.reverse : DLQPayloadPolicy where
  mode := .encrypted
  cipher := Cipher.reverse

/-- The policy encrypts. -/
def encrypts : Option DLQPayloadPolicy → Bool
  | none => false
  | some policy => policy.mode = .encrypted

/-- **What the stores take for an envelope**: a dict that says so. -/
def isEnvelope (v : Json) : Bool :=
  match v.get "payload_encoding" with
  | some (.str encoding) => encoding = "encrypted"
  | _ => false

/-- The record in an envelope. A store says in its own words that there is no policy. -/
def envelopeToRecord (missing : String) (policy : Option DLQPayloadPolicy)
    (sid : Option StorageId) (envelope : Payload) : Except Exc (DLQRecord δ) :=
  match policy with
  | none => throw (.exception "ValueError" missing)
  | some policy => do payloadToRecord py sid (← policy.decryptPayload py envelope)

/-- **How a stored record is read**: from the envelope, if its value is one, and else from
what is stored in clear. -/
def storedToRecord (missing : String) (policy : Option DLQPayloadPolicy)
    (sid : Option StorageId) (value : Json) (clear : Except Exc (DLQRecord δ)) :
    Except Exc (DLQRecord δ) :=
  match value with
  | .obj members =>
    if isEnvelope (.obj members) then envelopeToRecord py missing policy sid members else clear
  | _ => clear

/-! ## Envelopes -/

variable {py}

/-- The keys of the entries are those there were. -/
theorem normalMembers_envelope (policy : DLQPayloadPolicy) (ciphertext : String) :
    Json.normalMembers (policy.envelope ciphertext) = policy.envelope ciphertext := by
  unfold DLQPayloadPolicy.envelope
  cases policy.encryptionKeyId <;> rfl

theorem find_envelope (policy : DLQPayloadPolicy) (ciphertext : String) :
    Json.find "payload_encoding" (policy.envelope ciphertext) = some (.str "encrypted")
      ∧ Json.find "payload_ciphertext" (policy.envelope ciphertext) = some (.str ciphertext) := by
  unfold DLQPayloadPolicy.envelope
  cases policy.encryptionKeyId <;> exact ⟨rfl, rfl⟩

theorem isEnvelope_envelope (policy : DLQPayloadPolicy) (ciphertext : String) :
    isEnvelope (.obj (policy.envelope ciphertext)) = true := by
  unfold isEnvelope
  rw [Json.get_obj, (find_envelope policy ciphertext).1]
  rfl

/-- **Decryption undoes encryption**, up to the normal form of JSON. -/
theorem decryptPayload_of_find {policy : DLQPayloadPolicy} (hmode : policy.mode = .encrypted)
    {payload members : Payload} (h : Json.find "payload_ciphertext" members
      = some (.str (policy.cipher.encrypt (Json.dumps (.obj payload))))) :
    policy.decryptPayload py members = .ok (Json.normalMembers payload) := by
  unfold DLQPayloadPolicy.decryptPayload Payload.item
  rw [if_pos hmode, h]
  show (policy.cipher.decrypt (policy.cipher.encrypt _) >>= fun plaintext => _) = _
  rw [policy.cipher.decrypt_encrypt]
  show (match Json.loads (Json.dumps (.obj payload)) with
    | some (.obj payload) => pure payload
    | some _ => throw (.exception "TypeError" "string indices must be integers")
    | none => throw (.exception "JSONDecodeError" _) : Except Exc Payload) = _
  rw [Json.loads_dumps]
  rfl

theorem decryptPayload_envelope {policy : DLQPayloadPolicy} (hmode : policy.mode = .encrypted)
    (payload : Payload) :
    policy.decryptPayload py
        (policy.envelope (policy.cipher.encrypt (Json.dumps (.obj payload))))
      = .ok (Json.normalMembers payload) :=
  decryptPayload_of_find hmode (find_envelope policy _).2

/-- What is decrypted is in normal form. -/
theorem normal_of_decryptPayload {policy : DLQPayloadPolicy} {encrypted payload : Payload}
    (h : policy.decryptPayload py encrypted = .ok payload) :
    Json.normalMembers payload = payload := by
  unfold DLQPayloadPolicy.decryptPayload at h
  split at h
  next =>
    obtain ⟨ciphertext, _, h⟩ := exists_of_bind_eq_ok h
    obtain ⟨plaintext, _, h⟩ := exists_of_bind_eq_ok h
    split at h
    next hloads =>
      cases h
      exact Json.obj.inj (Json.normal_of_loads hloads)
    next => cases h
    next => cases h
  next => cases h

/-! ## Reading what is stored -/

variable {missing : String} {sid : Option StorageId} {value : Json}
  {clear : Except Exc (DLQRecord δ)}

theorem storedToRecord_of_not_isEnvelope {policy : Option DLQPayloadPolicy}
    (h : isEnvelope value = false) : storedToRecord py missing policy sid value clear = clear := by
  unfold storedToRecord
  cases value with
  | obj members =>
    dsimp only
    rw [h]
    rfl
  | null | bool b | num n | float x | str s | other text | arr items => rfl

/-- Only a dict can be an envelope. -/
theorem exists_of_isEnvelope (h : isEnvelope value = true) : ∃ members, value = .obj members := by
  cases value with
  | obj members => exact ⟨members, rfl⟩
  | null | bool b | num n | float x | str s | other text | arr items => cases h

theorem storedToRecord_of_isEnvelope {policy : Option DLQPayloadPolicy} {members : Payload}
    (h : isEnvelope (.obj members) = true) :
    storedToRecord py missing policy sid (.obj members) clear
      = envelopeToRecord py missing policy sid members := by
  unfold storedToRecord
  dsimp only
  rw [h]
  rfl

/-- **What was encrypted is read from its envelope**, whatever is stored in clear. -/
theorem storedToRecord_of_encrypted {policy : DLQPayloadPolicy} (hmode : policy.mode = .encrypted)
    (payload : Payload) :
    storedToRecord py missing (some policy) sid
        (.obj (policy.envelope (policy.cipher.encrypt (Json.dumps (.obj payload))))) clear
      = payloadToRecord py sid (Json.normalMembers payload) := by
  rw [storedToRecord_of_isEnvelope (isEnvelope_envelope policy _)]
  unfold envelopeToRecord
  dsimp only
  rw [decryptPayload_envelope hmode]
  rfl

/-- **Nothing else can read an envelope.** -/
theorem storedToRecord_ne_ok {policy : Option DLQPayloadPolicy} (hencrypts : encrypts policy = false)
    (h : isEnvelope value = true) (r : DLQRecord δ) :
    storedToRecord py missing policy sid value clear ≠ .ok r := by
  obtain ⟨members, hmembers⟩ := exists_of_isEnvelope h
  subst hmembers
  rw [storedToRecord_of_isEnvelope h]
  cases policy with
  | none => exact nofun
  | some policy =>
    have hmode : policy.mode ≠ .encrypted := of_decide_eq_false hencrypts
    unfold envelopeToRecord DLQPayloadPolicy.decryptPayload
    dsimp only
    rw [if_neg hmode]
    exact nofun

end Dlq

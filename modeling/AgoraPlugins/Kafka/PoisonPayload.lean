import AgoraPlugins.Dlq.RedactionCoverage
import AgoraPlugins.Kafka.DlqPayloads
import AgoraPlugins.Kafka.Poison

/-!
# The headers of a poison message

The dead letter of a poison message has the headers of the message twice: as a list of items
with a name and an encoded value, and in the metadata of the message as a list of pairs, whose
bytes JSON gets by their text. A record has the whole payload twice in turn, as the record and
as the original record.

Redaction looks at items and not at pairs. So a sensitive header shows in what is stored unless
its bytes happen to read as the text that is put in place of values, or the policy takes the
headers, the metadata or the payload out altogether (`clean_poisonPayload_iff`).
-/

/-- The text of the policy: the value of the enumeration. -/
def KafkaPoisonRecordPolicy.value : KafkaPoisonRecordPolicy → String
  | failClosed => "fail_closed"
  | logAndContinue => "log_and_continue"
  | dlqAndContinue => "dlq_and_continue"
  | dlqAndFailClosed => "dlq_and_fail_closed"

namespace Dlq

namespace KafkaPoison

variable {δ : Type} (py : Python δ)

/-! ## Texts of bytes -/

/-- A byte of the text, between these quotes. -/
def reprByte (quotes : Char) (b : UInt8) : List Char :=
  let c := Char.ofNat b.toNat
  if c = Json.backslash ∨ c = quotes then [Json.backslash, c]
  else if b.toNat = 9 then [Json.backslash, 't']
  else if b.toNat = 10 then [Json.backslash, 'n']
  else if b.toNat = 13 then [Json.backslash, 'r']
  else if b.toNat < 32 ∨ 127 ≤ b.toNat then
    [Json.backslash, 'x', Nat.digitChar (b.toNat / 16), Nat.digitChar (b.toNat % 16)]
  else [c]

/-- `str` of bytes: single quotes, unless these occur and double ones do not. -/
def strBytes (b : Bytes) : String :=
  let quotes := if 39 ∈ b ∧ 34 ∉ b then Json.quote else Char.ofNat 39
  String.ofList ('b' :: quotes :: b.flatMap (reprByte quotes) ++ [quotes])

def base64Char (n : ℕ) : Char :=
  if n < 26 then Char.ofNat (65 + n)
  else if n < 52 then Char.ofNat (71 + n)
  else if n < 62 then Char.ofNat (n - 4)
  else if n = 62 then '+' else '/'

/-- The characters of `base64.b64encode`. -/
def base64Chars : Bytes → List Char
  | a :: b :: c :: rest =>
    let n := (a.toNat * 256 + b.toNat) * 256 + c.toNat
    [n / 262144, n / 4096 % 64, n / 64 % 64, n % 64].map base64Char ++ base64Chars rest
  | [a, b] =>
    let n := (a.toNat * 256 + b.toNat) * 4
    [n / 4096, n / 64 % 64, n % 64].map base64Char ++ ['=']
  | [a] =>
    let n := a.toNat * 16
    [n / 64, n % 64].map base64Char ++ ['=', '=']
  | [] => []

/-! ## The dead letter -/

/-- **A message as it was polled.** A header may have no value. -/
structure PolledMessage where
  topic : String
  partition : ℤ
  offset : ℤ
  key : Option Bytes := none
  value : Option Bytes := none
  headers : List (String × Option Bytes) := []
  timestamp : Option ℤ := none
  timestampType : Option ℤ := none

/-- What a source says about itself in the metadata of a message. -/
structure Origin where
  sourceName : String
  groupId : String
  bootstrapServers : String
  subscriptionMode : String

/-- Bytes as a dict has them. -/
def rawBytes : Option Bytes → Json
  | none => .null
  | some b => .other (strBytes b)

def optionalNum : Option ℤ → Json
  | none => .null
  | some n => .num n

/-- The list of tuples that headers are. -/
def headerTuples (headers : List (String × Option Bytes)) : Json :=
  .arr (headers.map (fun h => .arr [.str h.1, rawBytes h.2]))

/-- `message_metadata`. -/
def messageMetadata (origin : Origin) (message : PolledMessage) (batchSize batchIndex : ℕ) :
    Payload :=
  [("topic", .str message.topic), ("partition", .num message.partition),
    ("offset", .num message.offset), ("key", rawBytes message.key),
    ("headers", headerTuples message.headers),
    ("timestamp", optionalNum message.timestamp),
    ("timestamp_type", optionalNum message.timestampType),
    ("consumer_group", .str origin.groupId), ("bootstrap_servers", .str origin.bootstrapServers),
    ("subscription_mode", .str origin.subscriptionMode), ("batch_size", .num batchSize),
    ("batch_index", .num batchIndex)]

/-- A text in one of the two encodings. -/
def encoded (encoding data : String) : Json :=
  .obj [("encoding", .str encoding), ("data", .str data)]

/-- `encode_kafka_value`. -/
def encodeKafkaValue : Option Bytes → Json
  | none => .null
  | some b =>
    match String.fromUTF8? b.toByteArray with
    | none => encoded "base64" (String.ofList (base64Chars b))
    | some decoded =>
      if Char.ofNat 0 ∈ decoded.toList then encoded "base64" (String.ofList (base64Chars b))
      else encoded "utf-8" decoded

/-- `encode_kafka_headers`. -/
def encodeKafkaHeaders (headers : List (String × Option Bytes)) : Json :=
  .arr (headers.map (fun h => .obj [("key", .str h.1), ("value", encodeKafkaValue h.2)]))

/-- The payload of a poison message, with what is known about the poison. -/
def poisonPayload (policy : KafkaPoisonRecordPolicy) (classification topic : String)
    (partition offset : ℤ) (message : PolledMessage) (metadata : Payload) : Payload :=
  [("topic", .str topic), ("partition", .num partition), ("offset", .num offset),
    ("key", encodeKafkaValue message.key), ("value", encodeKafkaValue message.value),
    ("headers", encodeKafkaHeaders message.headers),
    ("timestamp", optionalNum message.timestamp),
    ("timestamp_type", optionalNum message.timestampType), ("metadata", .obj metadata),
    ("poison", .obj [("classification", .str classification), ("policy", .str policy.value)])]

/-- **`build_poison_dlq_record`**, at a time in milliseconds. -/
def buildPoisonDlqRecord (cfg : PoisonConfig) (origin : Origin) (e : Exc) (classification : String)
    (message : PolledMessage) (metadata : Payload) (stage : String) (millis : ℤ) (now : δ) :
    Except Exc (DLQRecord δ) := do
  let topic := str py ((Json.find "topic" metadata).getD (.str message.topic))
  let partition ← int py ((Json.find "partition" metadata).getD (.num message.partition))
  let offset ← int py ((Json.find "offset" metadata).getD (.num message.offset))
  let payload := .obj (poisonPayload cfg.policy classification topic partition offset message metadata)
  let entry := [("topic", .str topic), ("partition", .num partition), ("offset", .num offset)]
  pure
    { pipelineId := cfg.pipelineId
      runId := topic ++ ":" ++ str py (.num partition) ++ ":" ++ str py (.num offset) ++ ":"
        ++ str py (.num millis)
      stage := stage
      errorType := (Poison.errorParts e).1
      errorMessage := (Poison.errorParts e).2
      record := payload
      originalRecord := payload
      processedRecord := .null
      source := some origin.sourceName
      checkpoint := .obj (entry ++ [("offsets", .arr [.obj entry])])
      details := .null
      middleware := none
      sink := none
      createdAt := now
      attempt := 0
      maxAttempts := cfg.maxAttempts.map Int.ofNat
      storageId := none }

/-- The dead letter of a message under its own metadata. -/
def deadLetter (cfg : PoisonConfig) (origin : Origin) (e : Exc) (classification : String)
    (message : PolledMessage) (batchSize batchIndex : ℕ) (stage : String) (millis : ℤ) (now : δ) :
    Except Exc (DLQRecord δ) :=
  buildPoisonDlqRecord py cfg origin e classification message
    (messageMetadata origin message batchSize batchIndex) stage millis now

/-! ## What is stored of it -/

/-- The keys with a dict or a list below them. -/
def nestedKeys : List String :=
  ["record", "original_record", "checkpoint", "offsets", "key", "value", "headers", "metadata",
    "poison"]

section Stored

variable {py} {headers fields : List String} {rv : String} {parentKey : Option String}

/-- Only headers are sensitive, so a member counts below `headers` alone. -/
theorem shelteredMembers_cons (hparent : parentKey ≠ some "headers") (k : String) (v : Json)
    (members : Payload) :
    shelteredMembers py [] headers rv fields parentKey ((k, v) :: members)
      = ((py.normalize k ∈ fields || sheltered py [] headers rv fields (some (py.normalize k)) v)
        && shelteredMembers py [] headers rv fields parentKey members) := by
  rw [shelteredMembers]
  simp [hiddenMember, namesBelow, hparent]

theorem shelteredMembers_nil :
    shelteredMembers py [] headers rv fields parentKey [] = true := rfl

theorem sheltered_encodeKafkaValue (hparent : parentKey ≠ some "headers") (value : Option Bytes) :
    sheltered py [] headers rv fields parentKey (encodeKafkaValue value).normal = true := by
  have hencoded : ∀ encoding data : String,
      sheltered py [] headers rv fields parentKey (encoded encoding data).normal = true := by
    intro encoding data
    simp [encoded, Json.normal, Json.normalMembers, sheltered, shelteredMembers_cons hparent,
      shelteredMembers_nil]
  cases value with
  | none => rfl
  | some b =>
    unfold encodeKafkaValue
    dsimp only
    split
    next => exact hencoded _ _
    next =>
      split
      next => exact hencoded _ _
      next => exact hencoded _ _

/-- **The items of headers are covered.** -/
theorem sheltered_encodeKafkaHeaders (hvalue : py.normalize "value" = "value")
    (messageHeaders : List (String × Option Bytes)) :
    sheltered py [] headers rv fields (some "headers") (encodeKafkaHeaders messageHeaders).normal
      = true := by
  unfold encodeKafkaHeaders
  rw [Json.normal, sheltered, if_pos rfl]
  induction messageHeaders with
  | nil => rfl
  | cons h messageHeaders ih =>
    obtain ⟨name, value⟩ := h
    have hbelow : sheltered py [] headers rv [] (some (py.normalize "value"))
        (encodeKafkaValue value).normal = true :=
      sheltered_encodeKafkaValue (by rw [hvalue]; decide) value
    rw [List.map_cons, Json.normalItems, Json.normal, shelteredHeaderItems, ih, Bool.and_true]
    split
    next =>
      -- the value is replaced, and the name is a text
      simp [Json.normalMembers, Json.normal, cleanBesideValue, hiddenMember, clean]
    next =>
      simp [Json.normalMembers, Json.normal, shelteredEntries, hiddenMember, sheltered, hbelow]

/-- The header of a pair does not show. -/
def hiddenHeader (py : Python δ) (headers : List String) (rv : String)
    (h : String × Option Bytes) : Bool :=
  py.normalize h.1 ∉ headers || h.2.map strBytes = some rv

/-- **The pairs of headers are not covered.** -/
theorem sheltered_headerTuples (messageHeaders : List (String × Option Bytes)) :
    sheltered py [] headers rv fields (some "headers") (headerTuples messageHeaders).normal
      = messageHeaders.all (hiddenHeader py headers rv) := by
  unfold headerTuples
  rw [Json.normal, sheltered, if_pos rfl]
  induction messageHeaders with
  | nil => rfl
  | cons h messageHeaders ih =>
    obtain ⟨name, value⟩ := h
    rw [List.map_cons, Json.normalItems, List.all_cons, ← ih]
    cases value with
    | none =>
      simp [rawBytes, Json.normal, Json.normalItems, shelteredHeaderItems, hiddenPair, namesHeader,
        hidden, hiddenHeader, clean, cleanItems]
    | some b =>
      simp [rawBytes, Json.normal, Json.normalItems, shelteredHeaderItems, hiddenPair, namesHeader,
        hidden, hiddenHeader, clean, cleanItems]

theorem sheltered_optionalNum (n : Option ℤ) :
    sheltered py [] headers rv fields parentKey (optionalNum n).normal = true := by
  cases n <;> rfl

theorem sheltered_rawBytes (b : Option Bytes) :
    sheltered py [] headers rv fields parentKey (rawBytes b).normal = true := by
  cases b <;> rfl

/-- The metadata of a message. -/
theorem sheltered_messageMetadata (hheaders : py.normalize "headers" = "headers")
    (hparent : parentKey ≠ some "headers") (origin : Origin) (message : PolledMessage)
    (batchSize batchIndex : ℕ) :
    sheltered py [] headers rv fields parentKey
        (Json.obj (messageMetadata origin message batchSize batchIndex)).normal
      = ("headers" ∈ fields || message.headers.all (hiddenHeader py headers rv)) := by
  rw [messageMetadata, Json.normal, sheltered]
  simp [Json.normalMembers, shelteredMembers_cons hparent, shelteredMembers_nil, hheaders,
    sheltered_headerTuples, sheltered_rawBytes, sheltered_optionalNum]
  simp [Json.normal, sheltered]

/-- **The payload of a poison message** is covered but for the pairs in its metadata. -/
theorem sheltered_poisonPayload (hnames : ∀ key ∈ nestedKeys, py.normalize key = key)
    (hparent : parentKey ≠ some "headers") (policy : KafkaPoisonRecordPolicy)
    (classification topic : String) (partition offset : ℤ) (origin : Origin)
    (message : PolledMessage) (batchSize batchIndex : ℕ) :
    sheltered py [] headers rv fields parentKey (Json.obj (poisonPayload policy classification topic
        partition offset message (messageMetadata origin message batchSize batchIndex))).normal
      = ("metadata" ∈ fields || ("headers" ∈ fields
        || message.headers.all (hiddenHeader py headers rv))) := by
  have hkey : py.normalize "key" = "key" := hnames "key" (by decide)
  have hvalue : py.normalize "value" = "value" := hnames "value" (by decide)
  have hheaders : py.normalize "headers" = "headers" := hnames "headers" (by decide)
  have hmetadata : py.normalize "metadata" = "metadata" := hnames "metadata" (by decide)
  have hpoison : py.normalize "poison" = "poison" := hnames "poison" (by decide)
  have hvalues : ∀ key : String, key ≠ "headers" → ∀ value : Option Bytes,
      sheltered py [] headers rv fields (some key) (encodeKafkaValue value).normal = true :=
    fun key h value => sheltered_encodeKafkaValue (fun hsome => h (Option.some.inj hsome)) value
  have hinfo : sheltered py [] headers rv fields (some "poison") (Json.obj
      [("classification", .str classification), ("policy", .str policy.value)]).normal = true := by
    have hbelow : some "poison" ≠ some "headers" := by decide
    simp [Json.normal, Json.normalMembers, sheltered, shelteredMembers_cons hbelow,
      shelteredMembers_nil]
  rw [poisonPayload, Json.normal, sheltered]
  simp only [Json.normalMembers, shelteredMembers_cons hparent, shelteredMembers_nil, hkey, hvalue,
    hheaders, hmetadata, hpoison, sheltered_encodeKafkaHeaders hvalue, hinfo,
    hvalues "key" (by decide), hvalues "value" (by decide), sheltered_optionalNum,
    sheltered_messageMetadata hheaders (show some "metadata" ≠ some "headers" from by decide)]
  simp [Json.normal, sheltered]

/-- The places of a message in the checkpoint of its dead letter. -/
def checkpointOf (message : PolledMessage) : Json :=
  let entry := [("topic", .str message.topic), ("partition", .num message.partition),
    ("offset", .num message.offset)]
  .obj (entry ++ [("offsets", .arr [.obj entry])])

/-- **The values of a dead letter** under the metadata of its own message. -/
theorem values_deadLetter {cfg : PoisonConfig} {origin : Origin} {e : Exc}
    {classification stage : String} {message : PolledMessage} {batchSize batchIndex : ℕ} {millis : ℤ}
    {now : δ} {r : DLQRecord δ}
    (h : deadLetter py cfg origin e classification message batchSize batchIndex stage millis now
      = .ok r) :
    r.record = .obj (poisonPayload cfg.policy classification message.topic message.partition
        message.offset message (messageMetadata origin message batchSize batchIndex))
      ∧ r.originalRecord = r.record ∧ r.processedRecord = .null
      ∧ r.checkpoint = checkpointOf message ∧ r.details = .null := by
  cases h
  exact ⟨rfl, rfl, rfl, rfl, rfl⟩

variable (py) in
/-- Every message has a dead letter. -/
theorem exists_deadLetter (cfg : PoisonConfig) (origin : Origin) (e : Exc)
    (classification : String) (message : PolledMessage) (batchSize batchIndex : ℕ)
    (stage : String) (millis : ℤ) (now : δ) :
    ∃ r, deadLetter py cfg origin e classification message batchSize batchIndex stage millis now
      = .ok r :=
  ⟨_, rfl⟩

theorem sheltered_checkpointOf (hparent : parentKey ≠ some "headers")
    (hoffsets : py.normalize "offsets" = "offsets") (message : PolledMessage) :
    sheltered py [] headers rv fields parentKey (checkpointOf message).normal = true := by
  have hbelow : some "offsets" ≠ some "headers" := by decide
  simp [checkpointOf, Json.normal, Json.normalMembers, Json.normalItems, sheltered,
    shelteredMembers_cons hparent, shelteredMembers_cons hbelow, shelteredMembers_nil,
    shelteredItems, hoffsets]

/-- **What is stored of a poison message shows no sensitive header** if and only if the policy
takes out the headers, the metadata or both copies of the payload, or the bytes of each
sensitive header read as the text in place of values. -/
theorem clean_deadLetter_iff (hnames : ∀ key ∈ nestedKeys, py.normalize key = key)
    {policy : DLQPayloadPolicy} (hmode : policy.mode = .redacted) {cfg : PoisonConfig}
    {origin : Origin} {e : Exc} {classification stage : String} {message : PolledMessage}
    {batchSize batchIndex : ℕ} {millis : ℤ} {now : δ} {r : DLQRecord δ}
    (h : deadLetter py cfg origin e classification message batchSize batchIndex stage millis now
      = .ok r) :
    clean py [] (policy.headerNames py) policy.redactedValue none
        (.obj (KafkaPayloads.recordToPayload py (some policy) r)) = true
      ↔ ("record" ∈ policy.fieldNames py ∧ "original_record" ∈ policy.fieldNames py)
        ∨ "metadata" ∈ policy.fieldNames py ∨ "headers" ∈ policy.fieldNames py
        ∨ ∀ h ∈ message.headers, py.normalize h.1 ∈ policy.headerNames py →
          h.2.map strBytes = some policy.redactedValue := by
  obtain ⟨hrecord, horiginal, hprocessed, hcheckpoint, hdetails⟩ := values_deadLetter h
  have hall : message.headers.all (hiddenHeader py (policy.headerNames py) policy.redactedValue)
      = true ↔ ∀ h ∈ message.headers, py.normalize h.1 ∈ policy.headerNames py →
        h.2.map strBytes = some policy.redactedValue := by
    simp [hiddenHeader, imp_iff_not_or]
  have hpayload : ∀ key : String, key ≠ "headers" →
      sheltered py [] (policy.headerNames py) policy.redactedValue (policy.fieldNames py) (some key)
          r.record.normal
        = ("metadata" ∈ policy.fieldNames py || ("headers" ∈ policy.fieldNames py
          || message.headers.all (hiddenHeader py (policy.headerNames py)
            policy.redactedValue))) := by
    intro key hkey
    rw [hrecord]
    have hparent : some key ≠ some "headers" := fun hsome => hkey (Option.some.inj hsome)
    exact sheltered_poisonPayload hnames hparent _ _ _ _ _ _ _ _ _
  have hplaces := @sheltered_checkpointOf δ py (policy.headerNames py) (policy.fieldNames py)
    policy.redactedValue (some "checkpoint") (by decide) (hnames "offsets" (by decide)) message
  have hnone : none ≠ some "headers" := nofun
  have hnull : ∀ key : Option String, sheltered py [] (policy.headerNames py) policy.redactedValue
      (policy.fieldNames py) key Json.null.normal = true := fun key => rfl
  have htext : ∀ (key : Option String) (text : Option String), sheltered py []
      (policy.headerNames py) policy.redactedValue (policy.fieldNames py) key (optional text)
      = true := by
    intro key text
    cases text <;> rfl
  rw [KafkaPayloads.recordToPayload, clean_apply_iff policy hmode, sheltered, payloadOf]
  -- whether or not there is a bound on the attempts
  cases r.maxAttempts <;>
  · simp only [shelteredMembers_cons hnone, shelteredMembers_nil, KafkaPayloads.serializeJson_eq,
      horiginal, hprocessed, hcheckpoint, hdetails, hnames "record" (by decide),
      hnames "original_record" (by decide), hnames "checkpoint" (by decide),
      hpayload "record" (by decide), hpayload "original_record" (by decide), hplaces, hnull, htext]
    simp only [sheltered, Bool.or_true, Bool.and_true, Bool.true_and, Bool.and_eq_true,
      Bool.or_eq_true, decide_eq_true_eq, hall]
    exact and_or_right.symm

/-- **What a redacting policy hides.** Of any payload it leaves nothing under a sensitive name
if and only if nothing stood there where it does not look; and of a poison message it shows no
sensitive header if and only if it takes out what has the headers, or the bytes of each
sensitive header read as the text in place of values. -/
theorem redacted_hides_iff (hnames : ∀ key ∈ nestedKeys, py.normalize key = key)
    {policy : DLQPayloadPolicy} (hmode : policy.mode = .redacted) :
    (∀ payload : Payload,
      clean py (policy.fieldNames py) (policy.headerNames py) policy.redactedValue none
          (.obj (policy.apply py payload)) = true
        ↔ sheltered py (policy.fieldNames py) (policy.headerNames py) policy.redactedValue
          (policy.fieldNames py) none (.obj payload) = true)
      ∧ ∀ (cfg : PoisonConfig) (origin : Origin) (e : Exc) (classification stage : String)
        (message : PolledMessage) (batchSize batchIndex : ℕ) (millis : ℤ) (now : δ),
        ∃ r, deadLetter py cfg origin e classification message batchSize batchIndex stage millis now
            = .ok r
          ∧ (clean py [] (policy.headerNames py) policy.redactedValue none
              (.obj (KafkaPayloads.recordToPayload py (some policy) r)) = true
            ↔ ("record" ∈ policy.fieldNames py ∧ "original_record" ∈ policy.fieldNames py)
              ∨ "metadata" ∈ policy.fieldNames py ∨ "headers" ∈ policy.fieldNames py
              ∨ ∀ h ∈ message.headers, py.normalize h.1 ∈ policy.headerNames py →
                h.2.map strBytes = some policy.redactedValue) :=
  ⟨clean_apply_iff policy hmode, fun cfg origin e classification stage message batchSize batchIndex
      millis now =>
    have ⟨r, hr⟩ := exists_deadLetter py cfg origin e classification message batchSize batchIndex
      stage millis now
    ⟨r, hr, clean_deadLetter_iff hnames hmode hr⟩⟩

end Stored

/-- A redacting policy with the common names only. -/
def commonPolicy : DLQPayloadPolicy where
  mode := .redacted
  cipher := Cipher.reverse

/-- A message with a token. -/
def withToken : PolledMessage where
  topic := "orders"
  partition := 0
  offset := 7
  headers := [("Authorization", some [115, 51])]

/-- A message with a header that is not sensitive. -/
def withTraceId : PolledMessage := { withToken with headers := [("X-Trace-Id", some [49, 50])] }

def orders : Origin where
  sourceName := "kafka"
  groupId := "etl"
  bootstrapServers := "localhost:9092"
  subscriptionMode := "topics"

theorem normalize_nestedKeys :
    ∀ key ∈ nestedKeys, Python.singleQuoted.normalize key = key := by
  decide +kernel

/-- A password is hidden, and a message none of whose headers is sensitive shows none that is. -/
theorem redacted_hides_password :
    (∀ key ∈ nestedKeys, Python.singleQuoted.normalize key = key)
      ∧ commonPolicy.mode = .redacted
      ∧ clean Python.singleQuoted (commonPolicy.fieldNames Python.singleQuoted)
        (commonPolicy.headerNames Python.singleQuoted) "[REDACTED]" none
        (.obj (commonPolicy.apply Python.singleQuoted
          [("user", .obj [("Password", .str "s3")])])) = true
      ∧ ∃ r, deadLetter Python.singleQuoted {} orders (.exception "ValueError" "bad payload")
          "deserialization" withTraceId 1 0 "source" 0 "now" = .ok r
        ∧ clean Python.singleQuoted [] (commonPolicy.headerNames Python.singleQuoted) "[REDACTED]"
          none (.obj (KafkaPayloads.recordToPayload Python.singleQuoted (some commonPolicy) r))
          = true := by
  have hmode : commonPolicy.mode = .redacted := rfl
  obtain ⟨hpayloads, hletters⟩ := redacted_hides_iff normalize_nestedKeys hmode
  refine ⟨normalize_nestedKeys, rfl, (hpayloads _).mpr (by decide +kernel), ?_⟩
  obtain ⟨r, hr, hclean⟩ := hletters {} orders (.exception "ValueError" "bad payload")
    "deserialization" "source" withTraceId 1 0 0 "now"
  have hplain : Python.singleQuoted.normalize "X-Trace-Id"
      ∉ commonPolicy.headerNames Python.singleQuoted := by
    decide +kernel
  refine ⟨r, hr, hclean.mpr (.inr (.inr (.inr (fun h hh hname => ?_))))⟩
  rw [List.mem_singleton.1 hh] at hname
  exact absurd hname hplain

/-- **A sensitive header shows** in the metadata of its dead letter, though the policy redacts
headers of this name; and so does a header in a dict of headers. -/
theorem clean_withToken_ne :
    (¬ ∀ payload : Payload,
      clean Python.singleQuoted (commonPolicy.fieldNames Python.singleQuoted)
        (commonPolicy.headerNames Python.singleQuoted) "[REDACTED]" none
        (.obj (commonPolicy.apply Python.singleQuoted payload)) = true)
      ∧ ¬ ∀ r, deadLetter Python.singleQuoted {} orders (.exception "ValueError" "bad payload")
          "deserialization" withToken 1 0 "source" 0 "now" = .ok r →
        clean Python.singleQuoted [] (commonPolicy.headerNames Python.singleQuoted) "[REDACTED]"
          none (.obj (KafkaPayloads.recordToPayload Python.singleQuoted (some commonPolicy) r))
          = true := by
  constructor
  · intro hpayloads
    have hdict := hpayloads [("headers", .obj [("X-Auth-Token", .str "s3")])]
    revert hdict
    decide +kernel
  · intro hletters
    obtain ⟨r, hr⟩ := exists_deadLetter Python.singleQuoted {} orders
      (.exception "ValueError" "bad payload") "deserialization" withToken 1 0 "source" 0 "now"
    have hmode : commonPolicy.mode = .redacted := rfl
    have hclean := (clean_deadLetter_iff normalize_nestedKeys hmode hr).mp (hletters r hr)
    revert hclean
    decide +kernel

end KafkaPoison

end Dlq

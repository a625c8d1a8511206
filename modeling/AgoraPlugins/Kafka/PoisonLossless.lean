import AgoraPlugins.Kafka.PoisonPayload

/-!
# A dead letter determines its message

The bytes of a poison message go into its dead letter as text: in UTF-8 if they are UTF-8 without
a NUL, and in Base64 otherwise, with the name of the encoding beside the text. No two values give
the same text under the same name, and a missing value gives `null`. So what is read back of a
dead letter, in clear or encrypted, has the key, the value and the headers of one message only,
whatever the metadata it was built with.
-/

namespace Dlq

namespace KafkaPoison

variable {δ : Type} {py : Python δ}

/-! ## Base64 -/

/-- The sextet that a character stands for. -/
def base64Value (c : Char) : ℕ :=
  if c.isUpper then c.toNat - 65
  else if c.isLower then c.toNat - 71
  else if c.isDigit then c.toNat + 4
  else if c = '+' then 62
  else if c = '/' then 63
  else 64

theorem base64Value_base64Char {n : ℕ} (h : n < 64) : base64Value (base64Char n) = n := by
  have hall : ∀ n < 64, base64Value (base64Char n) = n := by decide
  exact hall n h

/-- No sextet is written as padding. -/
theorem base64Char_ne {n : ℕ} (h : n < 64) : base64Char n ≠ '=' := by
  intro heq
  have hvalue := base64Value_base64Char h
  rw [heq, show base64Value '=' = 64 from rfl] at hvalue
  omega

/-- The bytes of a text in Base64. -/
def base64Bytes : List Char → Bytes
  | a :: b :: c :: d :: rest =>
    let m := base64Value a * 64 + base64Value b
    let n := (m * 64 + base64Value c) * 64 + base64Value d
    if c = '=' then [UInt8.ofNat (m / 16)]
    else if d = '=' then [UInt8.ofNat (m / 16), UInt8.ofNat ((m * 64 + base64Value c) / 4)]
    else UInt8.ofNat (n / 65536) :: UInt8.ofNat (n / 256) :: UInt8.ofNat n :: base64Bytes rest
  | _ => []

theorem ofNat_of_mod {a : UInt8} {n : ℕ} (h : n % 256 = a.toNat) : UInt8.ofNat n = a := by
  rw [← UInt8.toNat_inj, UInt8.toNat_ofNat']
  exact h

/-- **Base64 is read back.** Four characters have three bytes, and the padding tells how many
bytes the last four have. -/
theorem base64Bytes_base64Chars : ∀ b : Bytes, base64Bytes (base64Chars b) = b
  | [] => rfl
  | [a] => by
    have ha := a.toNat_lt
    simp only [base64Chars, List.map_cons, List.map_nil, List.cons_append, List.nil_append,
      base64Bytes]
    rw [base64Value_base64Char (by omega), base64Value_base64Char (by omega), if_pos trivial,
      ofNat_of_mod (a := a) (by omega)]
  | [a, b] => by
    have ha := a.toNat_lt
    have hb := b.toNat_lt
    simp only [base64Chars, List.map_cons, List.map_nil, List.cons_append, List.nil_append,
      base64Bytes]
    rw [if_neg (base64Char_ne (by omega)), if_pos trivial, base64Value_base64Char (by omega),
      base64Value_base64Char (by omega), base64Value_base64Char (by omega),
      ofNat_of_mod (a := a) (by omega), ofNat_of_mod (a := b) (by omega)]
  | a :: b :: c :: rest => by
    have ha := a.toNat_lt
    have hb := b.toNat_lt
    have hc := c.toNat_lt
    simp only [base64Chars, List.map_cons, List.map_nil, List.cons_append, List.nil_append,
      base64Bytes]
    rw [if_neg (base64Char_ne (by omega)), if_neg (base64Char_ne (by omega)),
      base64Value_base64Char (by omega), base64Value_base64Char (by omega),
      base64Value_base64Char (by omega), base64Value_base64Char (by omega),
      ofNat_of_mod (a := a) (by omega), ofNat_of_mod (a := b) (by omega),
      ofNat_of_mod (a := c) (by omega), base64Bytes_base64Chars rest]

/-! ## The encoded values -/

/-- What is written of bytes: the name of an encoding, and a text that has them. -/
theorem encodeKafkaValue_some (b : Bytes) :
    (∃ s : String, encodeKafkaValue (some b) = encoded "utf-8" s ∧ b.toByteArray = s.toByteArray)
      ∨ encodeKafkaValue (some b) = encoded "base64" (String.ofList (base64Chars b)) := by
  unfold encodeKafkaValue
  dsimp only
  split
  next => exact .inr rfl
  next decoded hdecoded =>
    split
    next => exact .inr rfl
    next => exact .inl ⟨decoded, rfl, KafkaPayloads.fromUTF8?_eq_some_iff.1 hdecoded⟩

theorem encoded_inj {encoding encoding' data data' : String}
    (h : encoded encoding data = encoded encoding' data') :
    encoding = encoding' ∧ data = data' := by
  unfold encoded at h
  simpa using h

theorem toByteArray_inj {b b' : Bytes} (h : b.toByteArray = b'.toByteArray) : b = b' := by
  have hdata := congrArg (fun bytes => bytes.data.toList) h
  simpa using hdata

/-- **The encoding of a value determines it**, and a missing value is told from an empty one. -/
theorem encodeKafkaValue_inj {value value' : Option Bytes}
    (h : encodeKafkaValue value = encodeKafkaValue value') : value = value' := by
  cases value with
  | none =>
    cases value' with
    | none => rfl
    | some b' =>
      obtain ⟨s, hs, _⟩ | hs := encodeKafkaValue_some b' <;> rw [hs] at h <;> cases h
  | some b =>
    cases value' with
    | none => obtain ⟨s, hs, _⟩ | hs := encodeKafkaValue_some b <;> rw [hs] at h <;> cases h
    | some b' =>
      obtain ⟨s, hs, hb⟩ | hs := encodeKafkaValue_some b <;>
        obtain ⟨s', hs', hb'⟩ | hs' := encodeKafkaValue_some b' <;> rw [hs, hs'] at h
      · obtain ⟨_, rfl⟩ := encoded_inj h
        rw [toByteArray_inj (hb.trans hb'.symm)]
      · exact absurd (encoded_inj h).1 (by decide)
      · exact absurd (encoded_inj h).1 (by decide)
      · rw [← base64Bytes_base64Chars b, String.ofList_injective (encoded_inj h).2,
          base64Bytes_base64Chars]

/-- **The encoding of headers determines them**, with their order and their repeats. -/
theorem encodeKafkaHeaders_inj {headers headers' : List (String × Option Bytes)}
    (h : encodeKafkaHeaders headers = encodeKafkaHeaders headers') : headers = headers' := by
  refine List.map_injective_iff.2 ?_ (Json.arr.inj h)
  rintro ⟨k, v⟩ ⟨k', v'⟩ hitem
  simp only [Json.obj.injEq, List.cons.injEq, Prod.mk.injEq, Json.str.injEq, true_and, and_true]
    at hitem
  rw [hitem.1, encodeKafkaValue_inj hitem.2]

/-- JSON keeps what is encoded. -/
theorem normal_encodeKafkaValue (value : Option Bytes) :
    (encodeKafkaValue value).normal = encodeKafkaValue value := by
  cases value with
  | none => rfl
  | some b => obtain ⟨s, hs, _⟩ | hs := encodeKafkaValue_some b <;> rw [hs] <;> rfl

theorem normal_encodeKafkaHeaders (headers : List (String × Option Bytes)) :
    (encodeKafkaHeaders headers).normal = encodeKafkaHeaders headers := by
  unfold encodeKafkaHeaders
  rw [Json.normal]
  congr 1
  induction headers with
  | nil => rfl
  | cons h headers ih =>
    rw [List.map_cons, Json.normalItems, ih]
    simp [Json.normal, Json.normalMembers, normal_encodeKafkaValue]

/-! ## The dead letter -/

/-- What a dead letter has of its message, after JSON. -/
theorem find_poisonPayload (policy : KafkaPoisonRecordPolicy) (classification topic : String)
    (partition offset : ℤ) (message : PolledMessage) (metadata : Payload) :
    let payload := (Json.obj (poisonPayload policy classification topic partition offset message
      metadata)).normal
    payload.get "key" = some (encodeKafkaValue message.key)
      ∧ payload.get "value" = some (encodeKafkaValue message.value)
      ∧ payload.get "headers" = some (encodeKafkaHeaders message.headers) := by
  rw [poisonPayload, Json.normal]
  simp [Json.normalMembers, Json.find, normal_encodeKafkaValue, normal_encodeKafkaHeaders]

/-- A dead letter has its message encoded, whatever it was built with. -/
theorem record_buildPoisonDlqRecord {cfg : PoisonConfig} {origin : Origin} {e : Exc}
    {classification stage : String} {message : PolledMessage} {metadata : Payload} {millis : ℤ}
    {now : δ} {r : DLQRecord δ}
    (h : buildPoisonDlqRecord py cfg origin e classification message metadata stage millis now
      = .ok r) :
    r.record.normal.get "key" = some (encodeKafkaValue message.key)
      ∧ r.record.normal.get "value" = some (encodeKafkaValue message.value)
      ∧ r.record.normal.get "headers" = some (encodeKafkaHeaders message.headers) := by
  obtain ⟨partition, _, h⟩ := exists_of_bind_eq_ok h
  obtain ⟨offset, _, h⟩ := exists_of_bind_eq_ok h
  cases h
  exact find_poisonPayload _ _ _ _ _ _ _

/-- **What is read of a dead letter determines the message.** Under policies that do not redact,
the dead letters of two messages are stored and read back. If the records that are read have the
same payload, the messages have the same key, the same value and the same headers: their bytes,
what is missing, and the order and the repeats of the headers. -/
theorem message_of_decoded {policy policy' : Option DLQPayloadPolicy}
    (hmode : ∀ p ∈ policy, p.mode ≠ .redacted) (hmode' : ∀ p ∈ policy', p.mode ≠ .redacted)
    {cfg cfg' : PoisonConfig} {origin origin' : Origin} {e e' : Exc}
    {classification classification' stage stage' : String} {message message' : PolledMessage}
    {metadata metadata' : Payload} {millis millis' : ℤ} {now now' : δ} {r r' : DLQRecord δ}
    (hr : buildPoisonDlqRecord py cfg origin e classification message metadata stage millis now
      = .ok r)
    (hr' : buildPoisonDlqRecord py cfg' origin' e' classification' message' metadata' stage' millis'
      now' = .ok r') (digest : Payload → String) (k k' : String) :
    ∃ put put' read read',
      KafkaPayloads.encodeDlqEnvelope py k "put" (some r) policy = .ok put
      ∧ KafkaPayloads.encodeDlqEnvelope py k' "put" (some r') policy' = .ok put'
      ∧ KafkaPayloads.decodeDlqEnvelope py digest policy (KafkaPayloads.serialize put)
        = .ok ("put", k, some read)
      ∧ KafkaPayloads.decodeDlqEnvelope py digest policy' (KafkaPayloads.serialize put')
        = .ok ("put", k', some read')
      ∧ (read.record = read'.record → message.key = message'.key ∧ message.value = message'.value
        ∧ message.headers = message'.headers) := by
  obtain ⟨put, hput, hread⟩ := @KafkaPayloads.decodeDlqEnvelope_put δ py digest policy hmode k r
  obtain ⟨put', hput', hread'⟩ :=
    @KafkaPayloads.decodeDlqEnvelope_put δ py digest policy' hmode' k' r'
  refine ⟨put, put', _, _, hput, hput', hread, hread', fun hrecord => ?_⟩
  have hsame : r.record.normal = r'.record.normal := hrecord
  obtain ⟨hkey, hvalue, hheaders⟩ := record_buildPoisonDlqRecord hr
  obtain ⟨hkey', hvalue', hheaders'⟩ := record_buildPoisonDlqRecord hr'
  rw [hsame] at hkey hvalue hheaders
  refine ⟨?_, ?_, ?_⟩
  · exact encodeKafkaValue_inj (Option.some.inj (hkey.symm.trans hkey'))
  · exact encodeKafkaValue_inj (Option.some.inj (hvalue.symm.trans hvalue'))
  · exact encodeKafkaHeaders_inj (Option.some.inj (hheaders.symm.trans hheaders'))

/-- A missing value and an empty one are told apart, from the dead letter in clear of one message
and the encrypted one of the other. -/
theorem message_of_decoded_empty : ∃ r r' put put' read read',
    deadLetter .singleQuoted {} orders (.exception "ValueError" "bad payload") "deserialization"
        withToken 1 0 "source" 0 "now" = .ok r
      ∧ deadLetter .singleQuoted {} orders (.exception "ValueError" "bad payload") "deserialization"
        { withToken with value := some [] } 1 0 "source" 0 "now" = .ok r'
      ∧ KafkaPayloads.decodeDlqEnvelope .singleQuoted (fun _ => "") none
        (KafkaPayloads.serialize put) = .ok ("put", "k", some read)
      ∧ KafkaPayloads.decodeDlqEnvelope .singleQuoted (fun _ => "") (some .reverse)
        (KafkaPayloads.serialize put') = .ok ("put", "k", some read')
      ∧ read.record ≠ read'.record := by
  have hclear : ∀ p ∈ (none : Option DLQPayloadPolicy), p.mode ≠ .redacted := by
    rintro p ⟨⟩
  have hencrypted : ∀ p ∈ some DLQPayloadPolicy.reverse, p.mode ≠ .redacted := by
    rintro p ⟨⟩
    decide
  obtain ⟨r, hr⟩ := exists_deadLetter .singleQuoted {} orders (.exception "ValueError" "bad payload")
    "deserialization" withToken 1 0 "source" 0 "now"
  obtain ⟨r', hr'⟩ := exists_deadLetter .singleQuoted {} orders
    (.exception "ValueError" "bad payload") "deserialization" { withToken with value := some [] } 1 0
    "source" 0 "now"
  obtain ⟨put, put', read, read', _, _, hread, hread', hsame⟩ :=
    message_of_decoded hclear hencrypted hr hr' (fun _ => "") "k" "k"
  refine ⟨r, r', put, put', read, read', hr, hr', hread, hread', fun hrecord => ?_⟩
  cases (hsame hrecord).2.1

end KafkaPoison

end Dlq

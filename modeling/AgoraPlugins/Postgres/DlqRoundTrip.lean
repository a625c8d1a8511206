import AgoraPlugins.Postgres.Dlq

/-!
# Round trips of the Postgres DLQ

What `record_to_row` makes of a record is stored, read back and handed to `row_to_record`.
An encrypted record comes back as it was, from what is in its envelope. A record in clear
does not always: a JSONB column gives a value, and if this value is a text, `decode_json`
takes it for the text of a value once more. So a text that is JSON comes back as what it
says, and an empty one as `None`. A dict that looks like an envelope is taken for one.

The storage id is not part of the row. A source gives it to the record, and it is given
here as well.
-/

namespace Dlq

namespace PostgresPayloads

variable {δ : Type} (py : Python δ) (sha256 : String → String)

/-- **Written and read back.** -/
def restored (policy : Option DLQPayloadPolicy) (r : DLQRecord δ) : Except Exc (DLQRecord δ) := do
  let row ← recordToRow py sha256 policy r
  rowToRecord py policy r.storageId row.stored

/-- A text that `decode_json` takes for another value. -/
def readsAgain : Json → Bool
  | .str text => text = "" || (Json.loads text).isSome
  | .null | .bool _ | .num _ | .float _ | .other _ | .arr _ | .obj _ => false

/-- **When a record in clear comes back**: none of its values is a text that is empty or
JSON, the record itself does not look like an envelope, and the time of creation has a time
zone. -/
structure Restorable (r : DLQRecord δ) : Prop where
  values : ∀ v ∈ r.values, readsAgain v = false
  record : isEnvelope r.record = false
  createdAt : py.withTimezone r.createdAt = r.createdAt

variable {py} {sha256}

/-- **A value stays as it is** unless it is such a text: what a text says is never the text
itself. -/
theorem decodeJsonValue_eq_iff (v : Json) : decodeJsonValue v = v ↔ readsAgain v = false := by
  cases v with
  | str text =>
    show decodeJson text = .str text ↔ _
    unfold decodeJson readsAgain
    by_cases hempty : text = ""
    · rw [if_pos hempty, hempty]
      exact ⟨nofun, nofun⟩
    · rw [if_neg hempty]
      cases hloads : Json.loads text with
      | none => simp [hempty, hloads]
      | some w =>
        have hne : w ≠ .str text := by
          rintro rfl
          exact absurd (Json.length_lt_of_loads hloads) (lt_irrefl _)
        simp [hne, hloads]
  | null | bool b | num n | float x | other t | arr items | obj members =>
    exact ⟨fun _ => rfl, fun _ => rfl⟩

/-- **Nothing is lost in an envelope.** -/
theorem restored_encrypted {policy : DLQPayloadPolicy} (hmode : policy.mode = .encrypted)
    {r : DLQRecord δ} (hjson : r.HasJson) : restored py sha256 (some policy) r = .ok r := by
  have hraw : ∀ p ∈ some policy, p.mode ≠ .redacted := by
    rintro p ⟨⟩ hp
    rw [hmode] at hp
    cases hp
  have htext : ∀ text, optionalStr py (optional text).normal = text := by
    intro text
    cases text <;> rfl
  obtain ⟨row, hrow, _, _⟩ := @exists_recordToRow_eq δ py sha256 (some policy) hraw r
  have henvelope := (record_of_recordToRow hmode hrow).1
  have hpayload := @payloadToRecord_payloadOf δ py optional id
    (fun t => .other (py.strDatetime t)) r _ (py.fromisoformat_strDatetime r.createdAt) r.storageId
  obtain ⟨hrecord, horiginal, hprocessed, hcheckpoint, hdetails⟩ :=
    DLQRecord.forall_values.1 hjson.normal
  simp only [id_eq, hrecord, horiginal, hprocessed, hcheckpoint, hdetails, htext] at hpayload
  unfold restored
  rw [hrow]
  show rowToRecord py (some policy) r.storageId row.stored = _
  unfold rowToRecord
  rw [henvelope]
  show storedToRecord py _ _ _ (.obj _) _ = _
  rw [storedToRecord_of_encrypted hmode]
  exact hpayload

/-- What is read of the columns of a record in clear. -/
theorem restored_clear {policy : Option DLQPayloadPolicy} (hmode : ∀ p ∈ policy, p.mode = .raw)
    (r : DLQRecord δ) (hjson : r.HasJson) :
    restored py sha256 policy r
      = storedToRecord py "Encrypted Postgres DLQ payload requires a DLQPayloadPolicy." policy
        r.storageId (decodeJsonValue r.record) (.ok
          { r with
            record := decodeJsonValue r.record
            originalRecord := decodeJsonValue r.originalRecord
            processedRecord := decodeJsonValue r.processedRecord
            checkpoint := decodeJsonValue r.checkpoint
            details := decodeJsonValue r.details
            createdAt := py.withTimezone r.createdAt }) := by
  have hraw : ∀ p ∈ policy, p.mode ≠ .redacted := by
    intro p hp hredacted
    rw [hmode p hp] at hredacted
    cases hredacted
  have hrow : rowOf py policy r = clearRow py r := by
    unfold rowOf
    cases policy with
    | none => rfl
    | some p => exact if_neg (by rw [hmode p rfl]; decide)
  obtain ⟨hrecord, horiginal, hprocessed, hcheckpoint, hdetails⟩ :=
    DLQRecord.forall_values.1 hjson.normal
  unfold restored
  rw [recordToRow_eq hraw, hrow]
  show rowToRecord py policy r.storageId _ = _
  unfold rowToRecord
  rw [payloadToRecord_rowToPayload]
  simp only [Columns.stored, clearRow, assembled, jsonb_serializeJson, hrecord, horiginal,
    hprocessed, hcheckpoint, hdetails, py.withTimezone_withTimezone]

/-- **A record in clear comes back** just if it is restorable. -/
theorem restored_clear_iff {policy : Option DLQPayloadPolicy} (hmode : ∀ p ∈ policy, p.mode = .raw)
    {r : DLQRecord δ} (hjson : r.HasJson) :
    restored py sha256 policy r = .ok r ↔ Restorable py r := by
  have hencrypts : encrypts policy = false := by
    unfold encrypts
    cases policy with
    | none => rfl
    | some p => exact decide_eq_false (by rw [hmode p rfl]; decide)
  rw [restored_clear hmode r hjson]
  constructor
  · intro h
    have hclear : isEnvelope (decodeJsonValue r.record) = false := by
      by_contra henvelope
      exact storedToRecord_ne_ok hencrypts (Bool.of_not_eq_false henvelope) r h
    rw [storedToRecord_of_not_isEnvelope hclear, Except.ok.injEq] at h
    have hvalue : ∀ {v : Json}, decodeJsonValue v = v → readsAgain v = false :=
      fun hv => (decodeJsonValue_eq_iff _).1 hv
    have hrecord : decodeJsonValue r.record = r.record := congrArg DLQRecord.record h
    refine ⟨DLQRecord.forall_values.2 ⟨hvalue hrecord, ?_⟩, ?_, congrArg DLQRecord.createdAt h⟩
    · exact ⟨hvalue (congrArg DLQRecord.originalRecord h),
        hvalue (congrArg DLQRecord.processedRecord h), hvalue (congrArg DLQRecord.checkpoint h),
        hvalue (congrArg DLQRecord.details h)⟩
    · rw [← hrecord]
      exact hclear
  · rintro ⟨hvalues, hclear, hcreated⟩
    have hdecode : ∀ v ∈ r.values, decodeJsonValue v = v :=
      fun v hv => (decodeJsonValue_eq_iff v).2 (hvalues v hv)
    obtain ⟨hrecord, horiginal, hprocessed, hcheckpoint, hdetails⟩ :=
      DLQRecord.forall_values.1 hdecode
    rw [hrecord, horiginal, hprocessed, hcheckpoint, hdetails, hcreated,
      storedToRecord_of_not_isEnvelope hclear]

/-- **When a record comes back from its row**: always if it is encrypted, and otherwise just
if it is restorable. -/
theorem restored_row_iff (policy : Option DLQPayloadPolicy) (hmode : ∀ p ∈ policy, p.mode ≠ .redacted)
    (r : DLQRecord δ) (hjson : r.HasJson) :
    restored py sha256 policy r = .ok r ↔ encrypts policy = true ∨ Restorable py r := by
  by_cases hencrypts : encrypts policy = true
  · cases policy with
    | none => cases hencrypts
    | some p =>
      exact iff_of_true (restored_encrypted (of_decide_eq_true hencrypts) hjson) (.inl hencrypts)
  · have hraw : ∀ p ∈ policy, p.mode = .raw := by
      rintro p hp
      have hredacted := hmode p hp
      cases hm : p.mode with
      | raw => rfl
      | redacted => exact absurd hm hredacted
      | encrypted =>
        rw [Option.mem_def.1 hp] at hencrypts
        exact absurd (decide_eq_true hm) hencrypts
    rw [restored_clear_iff hraw hjson]
    exact ⟨.inr, fun h => h.resolve_left hencrypts⟩

/-- A record whose value is a text of digits. -/
def digits : DLQRecord String where
  pipelineId := "orders"
  runId := "run"
  stage := "parse"
  errorType := "ValueError"
  errorMessage := "bad order"
  record := .str "42"
  originalRecord := .obj [("id", .num 42)]
  processedRecord := .null
  source := some "kafka"
  checkpoint := .null
  details := .null
  middleware := none
  sink := none
  createdAt := "2024-01-01T00:00:00+00:00"
  attempt := 0
  maxAttempts := some 3
  storageId := none

theorem hasJson_digits : digits.HasJson := by
  unfold DLQRecord.HasJson
  decide

/-- The same record with a value that is no text comes back. -/
theorem restored_forty_two : restored .ofTexts id none { digits with record := .num 42 }
    = .ok { digits with record := .num 42 } := by
  have hjson : ({ digits with record := .num 42 } : DLQRecord String).HasJson := by
    unfold DLQRecord.HasJson
    decide
  refine (restored_row_iff none nofun _ hjson).2 (.inr ⟨?_, rfl, rfl⟩)
  decide

/-- **The text comes back as a number.** -/
theorem restored_digits_ne : restored .ofTexts id none digits ≠ .ok digits := by
  intro h
  have hrestorable := (@restored_clear_iff String .ofTexts id none nofun _ hasJson_digits).1 h
  have hrecord : readsAgain (.str "42") = false :=
    (DLQRecord.forall_values.1 hrestorable.values).1
  revert hrecord
  decide +kernel

end PostgresPayloads

end Dlq

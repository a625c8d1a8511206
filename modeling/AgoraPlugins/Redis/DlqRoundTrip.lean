import AgoraPlugins.Redis.DlqPayloads

/-!
# Round trips of the Redis DLQ

What `record_to_hash` makes of a record is handed to `hash_to_record`. In clear a missing
source, middleware or sink is the empty text in its field, and the empty text is read as a
missing one. In an envelope the empty text stands for a missing one too, and there it is
read as it is: the record comes back with empty texts.

In clear, as for Postgres, a dict that looks like an envelope is taken for one, and a time
without a time zone gets one.
-/

namespace Dlq

namespace RedisPayloads

variable {δ : Type} (py : Python δ)

/-- **Written and read back.** -/
def restored (policy : Option DLQPayloadPolicy) (r : DLQRecord δ) : Except Exc (DLQRecord δ) := do
  let mapping ← recordToHash py policy r
  hashToRecord py policy (Dict.update ∅ mapping)

/-- The texts of a record that may be missing. -/
def optionals (r : DLQRecord δ) : List (Option String) := [r.source, r.middleware, r.sink]

/-- **When a record comes back**: encrypted, if none of these texts is missing; in clear, if
the record itself does not look like an envelope and the time of creation has a time
zone. -/
def Restorable (policy : Option DLQPayloadPolicy) (r : DLQRecord δ) : Prop :=
  if encrypts policy then ∀ text ∈ optionals r, text ≠ none
  else isEnvelope r.record = false ∧ py.withTimezone r.createdAt = r.createdAt

variable {py}

theorem forall_optionals {r : DLQRecord δ} {p : Option String → Prop} :
    (∀ text ∈ optionals r, p text) ↔ p r.source ∧ p r.middleware ∧ p r.sink := by
  simp [optionals]

theorem lookup_update_empty (mapping : List (String × String)) (name : String) :
    (Dict.update (∅ : Hash) mapping).lookup name = Dict.last name mapping := by
  rw [Dict.lookup_update, AList.lookup_empty, Option.or_none]

/-- **The fields of a record in clear are read.** -/
theorem fieldsToRecord_clearHash (r : DLQRecord δ) :
    fieldsToRecord py (Dict.update ∅ (clearHash py r)) = .ok
      { r with
        record := r.record.normal
        originalRecord := r.originalRecord.normal
        processedRecord := r.processedRecord.normal
        source := r.source.filter (fun text => text ≠ "")
        checkpoint := r.checkpoint.normal
        details := r.details.normal
        middleware := r.middleware.filter (fun text => text ≠ "")
        sink := r.sink.filter (fun text => text ≠ "")
        createdAt := py.withTimezone r.createdAt
        storageId := none } := by
  have hlookup := lookup_update_empty (clearHash py r)
  generalize Dict.update ∅ (clearHash py r) = hash at hlookup
  -- what is read of a text, of a value and of a text that may be missing
  have hfield : ∀ {name text : String}, Dict.last name (clearHash py r) = some text →
      field hash name = .ok text := by
    intro name text h
    unfold field
    rw [hlookup, h]
    rfl
  have hdecoded : ∀ {name : String} {v : Json}, Dict.last name (clearHash py r) = some (Json.dumps v) →
      decoded hash name = v.normal := by
    intro name v h
    unfold decoded
    rw [hlookup, h]
    exact decodeJson_dumps v
  have htext : ∀ {name : String} {text : Option String},
      Dict.last name (clearHash py r) = some (text.getD "") →
      optionalStr py (textOrNone hash name) = text.filter (fun t => t ≠ "") := by
    intro name text h
    unfold textOrNone
    rw [hlookup, h]
    cases text with
    | none => rfl
    | some t =>
      by_cases ht : t = ""
      · rw [ht]
        rfl
      · show optionalStr py (if t = "" then .null else .str t) = _
        rw [if_neg ht, Option.filter_some, if_pos (decide_eq_true ht)]
        rfl
  have hattempt : attemptOf py hash = .ok r.attempt := attemptOf_eq (hlookup _)
  have hmax : maxAttemptsOf py hash = .ok r.maxAttempts := by
    unfold maxAttemptsOf
    rw [hlookup]
    cases hm : r.maxAttempts with
    | none =>
      have hlast : Dict.last "max_attempts" (clearHash py r) = some "" := by
        unfold clearHash
        rw [hm]
        rfl
      rw [hlast]
      rfl
    | some n =>
      have hlast : Dict.last "max_attempts" (clearHash py r) = some (Json.dumps (.num n)) := by
        unfold clearHash
        rw [hm]
        rfl
      rw [hlast]
      dsimp only
      rw [if_neg (dumps_ne _), py.int_str]
      rfl
  have hkey : hash.lookup "storage_key" = none := hlookup _
  have hcreated : coerceDatetime py (.str (py.isoformat r.createdAt)) = .ok r.createdAt :=
    py.fromisoformat_isoformat r.createdAt
  rw [fieldsToRecord_eq, @hfield "pipeline_id" _ rfl, @hfield "run_id" _ rfl,
    @hfield "stage" _ rfl, @hfield "error_type" _ rfl, @hfield "error_message" _ rfl,
    @hfield "created_at" _ rfl, hattempt, hmax]
  show (coerceDatetime py (.str (py.isoformat r.createdAt)) >>= fun t => _) = _
  rw [hcreated]
  show Except.ok (@assembled δ py _ _ _ _ _ _ _ _ _) = _
  unfold assembled
  rw [@hdecoded "record" _ rfl, @hdecoded "original_record" _ rfl,
    @hdecoded "processed_record" _ rfl, @hdecoded "checkpoint" _ rfl, @hdecoded "details" _ rfl,
    @htext "source" _ rfl, @htext "middleware" _ rfl, @htext "sink" _ rfl, hkey]
  rfl

/-- **A record in clear** comes back with its empty texts missing. -/
theorem restored_clear {policy : Option DLQPayloadPolicy} (hmode : ∀ p ∈ policy, p.mode = .raw)
    (r : DLQRecord δ) (hjson : r.HasJson) :
    restored py policy r
      = storedToRecord py "Encrypted Redis DLQ payload requires a DLQPayloadPolicy." policy none
        r.record (.ok
          { r with
            source := r.source.filter (fun text => text ≠ "")
            middleware := r.middleware.filter (fun text => text ≠ "")
            sink := r.sink.filter (fun text => text ≠ "")
            createdAt := py.withTimezone r.createdAt
            storageId := none }) := by
  have hraw : ∀ p ∈ policy, p.mode ≠ .redacted := by
    intro p hp hredacted
    rw [hmode p hp] at hredacted
    cases hredacted
  have hhash : hashOf py policy r = clearHash py r := by
    unfold hashOf
    cases policy with
    | none => rfl
    | some p => exact if_neg (by rw [hmode p rfl]; decide)
  obtain ⟨hrecord, horiginal, hprocessed, hcheckpoint, hdetails⟩ :=
    DLQRecord.forall_values.1 hjson.normal
  have hdecoded : decoded (Dict.update ∅ (clearHash py r)) "record" = r.record := by
    unfold decoded
    rw [lookup_update_empty]
    exact (decodeJson_dumps r.record).trans hrecord
  have hkey : (Dict.update ∅ (clearHash py r)).lookup "storage_key" = none :=
    lookup_update_empty _ _
  unfold restored
  rw [recordToHash_eq hraw, hhash]
  dsimp only [bind, Except.bind]
  unfold hashToRecord
  rw [hdecoded, hkey, fieldsToRecord_clearHash, hrecord, horiginal, hprocessed, hcheckpoint,
    hdetails]
  rfl

/-- **An encrypted record** comes back with its missing texts empty. -/
theorem restored_encrypted {policy : DLQPayloadPolicy} (hmode : policy.mode = .encrypted)
    {r : DLQRecord δ} (hjson : r.HasJson) :
    restored py (some policy) r = .ok
      { r with
        source := some (r.source.getD "")
        middleware := some (r.middleware.getD "")
        sink := some (r.sink.getD "")
        storageId := none } := by
  have hraw : ∀ p ∈ some policy, p.mode ≠ .redacted := by
    rintro p ⟨⟩ hp
    rw [hmode] at hp
    cases hp
  have htext : ∀ text, optionalStr py (textOr text).normal = some (text.getD "") := by
    intro text
    cases text <;> rfl
  obtain ⟨mapping, hmapping⟩ := @exists_recordToHash_eq δ py (some policy) hraw r
  have henvelope := record_of_recordToHash hmode hmapping
  rw [← lookup_update_empty] at henvelope
  have hkey : (Dict.update ∅ mapping).lookup "storage_key" = none := by
    rw [lookup_update_empty]
    cases hlast : Dict.last "storage_key" mapping with
    | none => rfl
    | some text =>
      have hmem : "storage_key" ∈ hashFields :=
        mem_hashFields_of_recordToHash hmapping _ (Dict.mem_of_last hlast)
      exact absurd hmem (by decide)
  have hpayload := @payloadToRecord_payloadOf δ py textOr id (fun t => .str (py.isoformat t)) r _
    (py.fromisoformat_isoformat r.createdAt) none
  obtain ⟨hrecord, horiginal, hprocessed, hcheckpoint, hdetails⟩ :=
    DLQRecord.forall_values.1 hjson.normal
  simp only [id_eq, hrecord, horiginal, hprocessed, hcheckpoint, hdetails, htext] at hpayload
  unfold restored
  rw [hmapping]
  dsimp only [bind, Except.bind]
  rw [hashToRecord_of_encrypted hmode henvelope, hkey]
  exact hpayload

/-- A text that is not empty is kept in clear. -/
theorem filter_eq_self {text : Option String} (h : text ≠ some "") :
    text.filter (fun t => t ≠ "") = text := by
  cases text with
  | none => rfl
  | some t =>
    have ht : t ≠ "" := fun ht => h (congrArg some ht)
    rw [Option.filter_some, if_pos (decide_eq_true ht)]

/-- A missing text does not stay missing in an envelope, and any other stays as it is. -/
theorem some_getD_eq_iff (text : Option String) : some (text.getD "") = text ↔ text ≠ none := by
  cases text <;> simp

/-- **When a record comes back from its hash**: just if it is restorable. -/
theorem restored_hash_iff (policy : Option DLQPayloadPolicy) (hmode : ∀ p ∈ policy, p.mode ≠ .redacted)
    (r : DLQRecord δ) (hjson : r.HasJson) (htexts : ∀ text ∈ optionals r, text ≠ some "") :
    restored py policy r = .ok { r with storageId := none } ↔ Restorable py policy r := by
  unfold Restorable
  by_cases hencrypts : encrypts policy = true
  · cases policy with
    | none => cases hencrypts
    | some p =>
      rw [if_pos hencrypts, restored_encrypted (of_decide_eq_true hencrypts) hjson,
        Except.ok.injEq, forall_optionals, ← some_getD_eq_iff, ← some_getD_eq_iff,
        ← some_getD_eq_iff]
      constructor
      · intro h
        exact ⟨congrArg DLQRecord.source h, congrArg DLQRecord.middleware h,
          congrArg DLQRecord.sink h⟩
      · rintro ⟨hsource, hmiddleware, hsink⟩
        rw [hsource, hmiddleware, hsink]
  · have hraw : ∀ p ∈ policy, p.mode = .raw := by
      rintro p hp
      have hredacted := hmode p hp
      cases hm : p.mode with
      | raw => rfl
      | redacted => exact absurd hm hredacted
      | encrypted =>
        rw [Option.mem_def.1 hp] at hencrypts
        exact absurd (decide_eq_true hm) hencrypts
    obtain ⟨hsource, hmiddleware, hsink⟩ := forall_optionals.1 htexts
    rw [if_neg hencrypts, restored_clear hraw r hjson, filter_eq_self hsource,
      filter_eq_self hmiddleware, filter_eq_self hsink]
    constructor
    · intro h
      have hclear : isEnvelope r.record = false := by
        by_contra henvelope
        exact storedToRecord_ne_ok (Bool.eq_false_iff.2 hencrypts)
          (Bool.of_not_eq_false henvelope) _ h
      rw [storedToRecord_of_not_isEnvelope hclear, Except.ok.injEq] at h
      exact ⟨hclear, congrArg DLQRecord.createdAt h⟩
    · rintro ⟨hclear, hcreated⟩
      rw [hcreated, storedToRecord_of_not_isEnvelope hclear]

/-- A record without a middleware. -/
def unattributed : DLQRecord String where
  pipelineId := "orders"
  runId := "run"
  stage := "parse"
  errorType := "ValueError"
  errorMessage := "bad order"
  record := .obj [("id", .num 42)]
  originalRecord := .null
  processedRecord := .null
  source := some "kafka"
  checkpoint := .null
  details := .null
  middleware := none
  sink := some "postgres"
  createdAt := "2024-01-01T00:00:00+00:00"
  attempt := 0
  maxAttempts := some 3
  storageId := none

theorem hasJson_unattributed : unattributed.HasJson := by
  unfold DLQRecord.HasJson
  decide

/-- With a middleware it comes back. -/
theorem restored_attributed :
    restored .ofTexts (some .reverse) { unattributed with middleware := some "retry" }
      = .ok { unattributed with middleware := some "retry", storageId := none } := by
  have hjson : ({ unattributed with middleware := some "retry" } : DLQRecord String).HasJson := by
    unfold DLQRecord.HasJson
    decide
  have hrestorable : Restorable .ofTexts (some .reverse)
      { unattributed with middleware := some "retry" } := by
    unfold Restorable
    rw [if_pos (by decide)]
    decide
  exact (restored_hash_iff (some .reverse) (by decide) _ hjson (by decide)).2 hrestorable

/-- **The missing middleware comes back as an empty text.** -/
theorem restored_unattributed_ne : restored .ofTexts (some .reverse) unattributed
    ≠ .ok { unattributed with storageId := none } := by
  rw [restored_encrypted rfl hasJson_unattributed]
  intro h
  have hmiddleware := congrArg DLQRecord.middleware (Except.ok.inj h)
  exact absurd hmiddleware (by decide)

end RedisPayloads

end Dlq

import AgoraPlugins.Dict
import AgoraPlugins.Dlq.Redaction
import AgoraPlugins.Kafka.DlqPayloads

/-!
# What a scan of the Kafka DLQ finds

A scan reads the messages from the first to the last and keeps, for each key, the last thing
that was done. The live records are those put last and not deleted, in the order of their last
messages.

What is kept stays in memory up to a threshold and goes to a table then, one row for each key
with the payload as a text. The table has its own insertion and its own order, and a record
is read back from its text. The rows are the texts of what memory would hold, at every point
of a run, so the scan finds the same records (`scan_spill_eq`).

A policy that redacts is applied before a record is kept, and once more when its text is
made, which changes nothing just because redaction is idempotent.
-/

namespace Dlq

namespace KafkaPayloads

variable {δ : Type} (py : Python δ)

/-- A row of `dlq_compaction`, which has the storage key as its key. -/
structure Row where
  sequence : ℕ
  payload : Option String
  deleted : Bool

/-- **`KafkaDLQCompactionState`**: what was done last with each key, in memory or in the table. -/
structure KafkaDLQCompactionState (δ : Type) where
  memory : Dict String (ℕ × Option (DLQRecord δ)) := ∅
  conn : Option (Dict String Row) := none

variable (policy : Option DLQPayloadPolicy)

/-- `_apply_payload_policy`. -/
def applyPayloadPolicy : Option (DLQRecord δ) → Except Exc (Option (DLQRecord δ))
  | none => pure none
  | some r =>
    match policy with
    | none => pure (some r)
    | some p =>
      if p.mode = .redacted then do
        let redacted ← payloadToRecord py (recordToPayload py (some p) r)
        pure (some { redacted with storageId := r.storageId })
      else pure (some r)

/-- `_record_payload_json`. -/
def recordPayloadJson (r : DLQRecord δ) : Except Exc String :=
  let payload := recordToPayload py policy r
  match policy with
  | none => pure (Json.dumps (.obj payload))
  | some p =>
    if p.mode = .encrypted then do
      let encrypted ← p.encryptPayload payload
      pure (Json.dumps (.obj encrypted))
    else pure (Json.dumps (.obj payload))

/-- `_decode_record_payload_json`. -/
def decodeRecordPayloadJson (text : String) : Except Exc Payload :=
  match Json.loads text with
  | some (.obj payload) =>
    if (Json.find "pipeline_id" payload).isSome then pure payload
    else do
      match ← decodeStoredPayload py policy payload with
      | none => throw (.exception "ValueError" "Kafka DLQ compaction payload is missing.")
      | some decoded => pure decoded
  | some _ => throw (.exception "TypeError" "argument is not iterable")
  | none => throw (.exception "JSONDecodeError" text)

/-- The row of an update. -/
def rowOf (sequence : ℕ) : Option (DLQRecord δ) → Except Exc Row
  | none => pure ⟨sequence, none, true⟩
  | some r => do pure ⟨sequence, some (← recordPayloadJson py policy r), false⟩

/-- `_spill_to_sqlite`, which makes the table. -/
def spillToSqlite (memory : Dict String (ℕ × Option (DLQRecord δ))) :
    Except Exc (Dict String Row) :=
  memory.entries.foldrM (fun e rows => do
    pure (rows.insert e.1 (← rowOf py policy e.2.1 e.2.2))) ∅

/-- Memory is full, and there is no table yet. -/
def shouldSpill (spillThreshold : Option ℤ) (s : KafkaDLQCompactionState δ) (storageKey : String) :
    Bool :=
  s.conn.isNone && spillThreshold.any (fun n => n ≤ (s.memory.entries.length : ℤ))
    && (s.memory.lookup storageKey).isNone

/-- The end of `update`: what was done last with a key is where the others are. -/
def keep (s : KafkaDLQCompactionState δ) (sequence : ℕ) (storageKey : String)
    (stored : Option (DLQRecord δ)) : Except Exc (KafkaDLQCompactionState δ) :=
  match s.conn with
  | none => pure { s with memory := s.memory.insert storageKey (sequence, stored) }
  | some rows => do
    let row ← rowOf py policy sequence stored
    pure { s with conn := some (rows.insert storageKey row) }

/-- **`update`.** -/
def update (spillThreshold : Option ℤ) (s : KafkaDLQCompactionState δ) (sequence : ℕ)
    (storageKey : String) (r : Option (DLQRecord δ)) : Except Exc (KafkaDLQCompactionState δ) := do
  let stored ← applyPayloadPolicy py policy r
  if shouldSpill spillThreshold s storageKey then do
    let rows ← spillToSqlite py policy s.memory
    keep py policy { conn := some rows } sequence storageKey stored
  else keep py policy s sequence storageKey stored

/-- A record of the table. -/
def readRow (x : String × ℕ × String) : Except Exc (ℕ × DLQRecord δ) := do
  let payload ← decodeRecordPayloadJson py policy x.2.2
  let r ← payloadToRecord py payload
  pure (x.2.1, keyed x.1 r)

/-- **`live_records`.** -/
def liveRecords (s : KafkaDLQCompactionState δ) : Except Exc (List (ℕ × DLQRecord δ)) :=
  match s.conn with
  | none => pure ((s.memory.entries.filterMap (fun e => e.2.2.map (fun r => (e.2.1, r)))).mergeSort
      (fun x y => x.1 ≤ y.1))
  | some rows =>
    ((rows.entries.filterMap (fun e =>
        if e.2.deleted then none else e.2.payload.map (fun text => (e.1, e.2.sequence, text)))).mergeSort
      (fun x y => x.2.1 ≤ y.2.1)).mapM (readRow py policy)

/-- A message of a scan. -/
def scanMessage (digest : Payload → String) (spillThreshold : Option ℤ)
    (s : ℕ × KafkaDLQCompactionState δ) (message : String) :
    Except Exc (ℕ × KafkaDLQCompactionState δ) := do
  let (operation, storageKey, r) ← decodeDlqEnvelope py digest policy message
  let state ← update py policy spillThreshold s.2 s.1 storageKey
    (if operation = "delete" then none else r)
  pure (s.1 + 1, state)

/-- **`iter_records`**: the messages are folded, and what is live then is found. -/
def scan (digest : Payload → String) (spillThreshold : Option ℤ) (messages : List String) :
    Except Exc (List (ℕ × DLQRecord δ)) := do
  let (_, state) ← messages.foldlM (scanMessage py policy digest spillThreshold) (0, {})
  liveRecords py policy state

/-! ## The table -/

/-- The text of a record in the table. -/
def text (r : DLQRecord δ) : String :=
  let payload := recordToPayload py policy r
  match policy with
  | none => Json.dumps (.obj payload)
  | some p =>
    if p.mode = .encrypted then
      Json.dumps (.obj (p.envelope (p.cipher.encrypt (Json.dumps (.obj payload)))))
    else Json.dumps (.obj payload)

/-- The row of what memory would hold. -/
def encode (e : ℕ × Option (DLQRecord δ)) : Row := ⟨e.1, e.2.map (text py policy), e.2.isNone⟩

/-- **The state after a spill**, for the state that a run in memory would have. -/
def image (spilled : Bool) (s : KafkaDLQCompactionState δ) : KafkaDLQCompactionState δ :=
  if spilled then { conn := some (Dict.mapValues (encode py policy) s.memory) } else s

variable {py} {policy}

theorem recordPayloadJson_eq (r : DLQRecord δ) :
    recordPayloadJson py policy r = .ok (text py policy r) := by
  unfold recordPayloadJson text DLQPayloadPolicy.encryptPayload
  cases policy with
  | none => rfl
  | some p =>
    by_cases hmode : p.mode = .encrypted
    · simp only [if_pos hmode]
      rfl
    · simp only [if_neg hmode]
      rfl

theorem rowOf_eq (sequence : ℕ) (r : Option (DLQRecord δ)) :
    rowOf py policy sequence r = .ok (encode py policy (sequence, r)) := by
  unfold rowOf
  cases r with
  | none => rfl
  | some r =>
    dsimp only
    rw [recordPayloadJson_eq]
    rfl

theorem spillToSqlite_eq (memory : Dict String (ℕ × Option (DLQRecord δ))) :
    spillToSqlite py policy memory = .ok (Dict.mapValues (encode py policy) memory) := by
  unfold spillToSqlite
  simp only [rowOf_eq]
  rw [show (fun (e : Σ _ : String, ℕ × Option (DLQRecord δ)) (rows : Dict String Row) =>
      (Except.ok (encode py policy (e.2.1, e.2.2)) >>= fun row => pure (rows.insert e.1 row)
        : Except Exc (Dict String Row)))
    = fun e rows => pure (rows.insert e.1 (encode py policy e.2)) from rfl, List.foldrM_pure]
  refine congrArg Except.ok ?_
  rw [← Dict.foldr_insert (Dict.mapValues (encode py policy) memory)]
  unfold Dict.mapValues
  rw [List.foldr_map]

theorem keep_memory {s : KafkaDLQCompactionState δ} (hs : s.conn = none) (sequence : ℕ)
    (storageKey : String) (stored : Option (DLQRecord δ)) :
    keep py policy s sequence storageKey stored
      = .ok { s with memory := s.memory.insert storageKey (sequence, stored) } := by
  unfold keep
  rw [hs]
  rfl

/-- What is kept in the table is what memory would hold. -/
theorem keep_image (s : KafkaDLQCompactionState δ) (sequence : ℕ) (storageKey : String)
    (stored : Option (DLQRecord δ)) :
    keep py policy (image py policy true s) sequence storageKey stored
      = .ok (image py policy true
        { s with memory := s.memory.insert storageKey (sequence, stored) }) := by
  show (do
      let row ← rowOf py policy sequence stored
      pure { conn := some ((Dict.mapValues (encode py policy) s.memory).insert storageKey row) }
    : Except Exc (KafkaDLQCompactionState δ)) = _
  rw [rowOf_eq]
  show Except.ok _ = Except.ok (image py policy true
    { s with memory := s.memory.insert storageKey (sequence, stored) })
  unfold image
  rw [if_pos rfl, Dict.mapValues_insert]

/-- What an update in memory does. -/
theorem exists_of_update_memory {s s' : KafkaDLQCompactionState δ} (hs : s.conn = none)
    {sequence : ℕ} {storageKey : String} {r : Option (DLQRecord δ)}
    (h : update py policy none s sequence storageKey r = .ok s') :
    ∃ stored, applyPayloadPolicy py policy r = .ok stored
      ∧ s' = { s with memory := s.memory.insert storageKey (sequence, stored) } := by
  obtain ⟨stored, hstored, h⟩ := exists_of_bind_eq_ok h
  have hmemory : shouldSpill none s storageKey = false := by simp [shouldSpill]
  rw [hmemory, if_neg Bool.false_ne_true, keep_memory hs] at h
  exact ⟨stored, hstored, (Except.ok.inj h).symm⟩

/-- **An update in the table is the update in memory.** -/
theorem update_image (spillThreshold : Option ℤ) (spilled : Bool) {s : KafkaDLQCompactionState δ}
    (hs : s.conn = none) (sequence : ℕ) (storageKey : String) (r : Option (DLQRecord δ)) :
    ∃ spilled', update py policy spillThreshold (image py policy spilled s) sequence storageKey r
      = image py policy spilled' <$> update py policy none s sequence storageKey r := by
  unfold update
  cases applyPayloadPolicy py policy r with
  | error e => exact ⟨spilled, rfl⟩
  | ok stored =>
    have hmemory : shouldSpill none s storageKey = false := by simp [shouldSpill]
    simp only [bind, Except.bind, hmemory, Bool.false_eq_true, if_false, keep_memory hs]
    cases spilled with
    | true =>
      have htable : shouldSpill spillThreshold (image py policy true s) storageKey = false := rfl
      simp only [htable, Bool.false_eq_true, if_false]
      exact ⟨true, keep_image s sequence storageKey stored⟩
    | false =>
      show ∃ spilled', (if shouldSpill spillThreshold s storageKey = true then _ else _) = _
      split
      next =>
        rw [show (image py policy false s).memory = s.memory from rfl, spillToSqlite_eq]
        exact ⟨true, keep_image s sequence storageKey stored⟩
      next =>
        rw [show image py policy false s = s from rfl, keep_memory hs]
        exact ⟨false, rfl⟩

/-- The messages leave the table that their updates in memory have as image. -/
theorem foldlM_image (digest : Payload → String) (spillThreshold : Option ℤ)
    (messages : List String) (spilled : Bool) {s : ℕ × KafkaDLQCompactionState δ}
    (hs : s.2.conn = none) :
    ∃ spilled', messages.foldlM (scanMessage py policy digest spillThreshold)
        (s.1, image py policy spilled s.2)
      = (fun s => (s.1, image py policy spilled' s.2))
        <$> messages.foldlM (scanMessage py policy digest none) s := by
  induction messages generalizing spilled s with
  | nil => exact ⟨spilled, rfl⟩
  | cons message messages ih =>
    rw [List.foldlM_cons, List.foldlM_cons]
    unfold scanMessage
    cases hdecode : decodeDlqEnvelope py digest policy message with
    | error e => exact ⟨spilled, rfl⟩
    | ok decoded =>
      obtain ⟨operation, storageKey, r⟩ := decoded
      dsimp only [bind, Except.bind]
      obtain ⟨spilled', hupdate⟩ := @update_image δ py policy spillThreshold spilled s.2 hs s.1
        storageKey (if operation = "delete" then none else r)
      rw [hupdate]
      cases hmemory : update py policy none s.2 s.1 storageKey
        (if operation = "delete" then none else r) with
      | error e => exact ⟨spilled, rfl⟩
      | ok s' =>
        refine @ih spilled' (s.1 + 1, s') ?_
        obtain ⟨stored, _, rfl⟩ := exists_of_update_memory hs hmemory
        exact hs

/-! ## What is found -/

/-- A record that is read back from its text, with the key it is stored under. -/
def Kept (storageKey : String) (r : DLQRecord δ) : Prop :=
  r.storageId = some (.key storageKey)
    ∧ (decodeRecordPayloadJson py policy (text py policy r) >>= payloadToRecord py)
      = .ok { r with storageId := none }

theorem readRow_text {x : String × ℕ × DLQRecord δ} (h : @Kept δ py policy x.1 x.2.2) :
    readRow py policy (x.1, x.2.1, text py policy x.2.2) = .ok x.2 := by
  obtain ⟨hid, hpayload⟩ := h
  obtain ⟨payload, hdecode, hrecord⟩ := exists_of_bind_eq_ok hpayload
  unfold readRow
  dsimp only [bind, Except.bind]
  rw [hdecode]
  dsimp only
  rw [hrecord]
  refine congrArg (fun r => Except.ok (x.2.1, r)) ?_
  unfold keyed
  rw [← hid]

/-- The live records with their keys, in memory. -/
def live (memory : Dict String (ℕ × Option (DLQRecord δ))) : List (String × ℕ × DLQRecord δ) :=
  memory.entries.filterMap (fun e => e.2.2.map (fun r => (e.1, e.2.1, r)))

/-- A list is sorted by what its items are taken to. -/
theorem mergeSort_map {α β : Type} (f : α → β) (key : β → ℕ) (items : List α) :
    (items.map f).mergeSort (fun x y => key x ≤ key y)
      = (items.mergeSort (fun x y => key (f x) ≤ key (f y))).map f :=
  (List.map_mergeSort (f := f) (fun _ _ _ _ => rfl)).symm

theorem liveRecords_memory {s : KafkaDLQCompactionState δ} (hs : s.conn = none) :
    liveRecords py policy s = .ok (((live s.memory).mergeSort (fun x y => x.2.1 ≤ y.2.1)).map
      (fun x => x.2)) := by
  have hlive : s.memory.entries.filterMap (fun e => e.2.2.map (fun r => (e.2.1, r)))
      = (live s.memory).map (fun x => x.2) := by
    unfold live
    rw [List.map_filterMap]
    simp only [Option.map_map]
    rfl
  unfold liveRecords
  rw [hs]
  dsimp only
  rw [hlive]
  exact congrArg Except.ok (mergeSort_map (fun x => x.2) (fun y => y.1) (live s.memory))

/-- **The table has the records that memory would have**, if each is read back from its text. -/
theorem liveRecords_image {s : KafkaDLQCompactionState δ} (hs : s.conn = none)
    (hkept : ∀ x ∈ live s.memory, @Kept δ py policy x.1 x.2.2) (spilled : Bool) :
    liveRecords py policy (image py policy spilled s) = liveRecords py policy s := by
  cases spilled with
  | false => rfl
  | true =>
    have hrows : (Dict.mapValues (encode py policy) s.memory).entries.filterMap (fun e =>
          if e.2.deleted then none else e.2.payload.map (fun text => (e.1, e.2.sequence, text)))
        = (live s.memory).map (fun x => (x.1, x.2.1, text py policy x.2.2)) := by
      unfold live Dict.mapValues
      rw [List.map_filterMap, List.filterMap_map]
      congr 1
      funext e
      obtain ⟨k, n, r⟩ := e
      cases r <;> rfl
    have hread : ∀ rows : List (String × ℕ × DLQRecord δ),
        (∀ x ∈ rows, @Kept δ py policy x.1 x.2.2) →
        (rows.map (fun x => (x.1, x.2.1, text py policy x.2.2))).mapM (readRow py policy)
          = .ok (rows.map (fun x => x.2)) := by
      intro rows hrows
      induction rows with
      | nil => rfl
      | cons x rows ih =>
        rw [List.map_cons, List.mapM_cons, readRow_text (hrows x List.mem_cons_self),
          ih (fun y hy => hrows y (List.mem_cons_of_mem x hy))]
        rfl
    rw [liveRecords_memory hs]
    show List.mapM _ (List.mergeSort (List.filterMap _ _) _) = _
    rw [hrows, mergeSort_map (fun x : String × ℕ × DLQRecord δ =>
      (x.1, x.2.1, text py policy x.2.2)) (fun y => y.2.1)]
    exact hread _ (fun x hx => hkept x (List.mem_mergeSort.1 hx))

/-! ## What is kept -/

theorem normalized_of_normal {r : DLQRecord δ} (h : ∀ v ∈ r.values, v.normal = v) :
    normalized r = r := by
  obtain ⟨hrecord, horiginal, hprocessed, hcheckpoint, hdetails⟩ := DLQRecord.forall_values.1 h
  unfold normalized
  rw [hrecord, horiginal, hprocessed, hcheckpoint, hdetails]

/-- A payload in clear is read from its text as it is. -/
theorem decodeRecordPayloadJson_clear {payload : Payload}
    (h : (Json.find "pipeline_id" (Json.normalMembers payload)).isSome = true) :
    decodeRecordPayloadJson py policy (Json.dumps (.obj payload))
      = .ok (Json.normalMembers payload) := by
  unfold decodeRecordPayloadJson
  rw [Json.loads_dumps, Json.normal]
  dsimp only
  rw [if_pos h]
  rfl

/-- An encrypted payload is read from the text of its envelope. -/
theorem decodeRecordPayloadJson_envelope {p : DLQPayloadPolicy} (hmode : p.mode = .encrypted)
    (payload : Payload) :
    decodeRecordPayloadJson py (some p)
        (Json.dumps (.obj (p.envelope (p.cipher.encrypt (Json.dumps (.obj payload))))))
      = .ok (Json.normalMembers payload) := by
  have hfind : ∀ ciphertext, Json.find "pipeline_id" (p.envelope ciphertext) = none
      ∧ Json.find "payload" (p.envelope ciphertext) = none := by
    intro ciphertext
    unfold DLQPayloadPolicy.envelope
    cases p.encryptionKeyId <;> simp [Json.find]
  have hstored := @decodeStoredPayload_sealed δ py p hmode payload _ (hfind _).2
    (isEnvelope_envelope p _) (find_envelope p _).2
  unfold decodeRecordPayloadJson
  rw [Json.loads_dumps, Json.normal, normalMembers_envelope]
  dsimp only
  rw [(hfind _).1]
  show (decodeStoredPayload py (some p) _ >>= fun decoded => _) = _
  rw [hstored]
  rfl

/-- **A record with values in normal form is kept** under a policy that does not redact. -/
theorem kept_of_normal (hmode : ∀ p ∈ policy, p.mode ≠ .redacted) {storageKey : String}
    {r : DLQRecord δ} (hid : r.storageId = some (.key storageKey))
    (hnormal : ∀ v ∈ r.values, v.normal = v) : @Kept δ py policy storageKey r := by
  refine ⟨hid, ?_⟩
  have hrecord := @payloadToRecord_normal δ py r
  rw [normalized_of_normal hnormal] at hrecord
  have hclear : ∀ policy, (decodeRecordPayloadJson py policy
      (Json.dumps (.obj (recordToPayload py none r))) >>= payloadToRecord py)
      = .ok { r with storageId := none } := by
    intro policy
    rw [decodeRecordPayloadJson_clear rfl]
    exact hrecord
  unfold text
  cases policy with
  | none => exact hclear none
  | some p =>
    dsimp only
    rw [recordToPayload_of_ne (hmode p rfl)]
    split
    next hp =>
      rw [decodeRecordPayloadJson_envelope hp]
      exact hrecord
    next => exact hclear _

/-! ## Under a policy that redacts -/

/-- `None` or a number. -/
def optionalNum : Option ℤ → Json
  | none => .null
  | some n => .num n

/-- What redaction makes of a member. -/
def masked (py : Python δ) (p : DLQPayloadPolicy) (key : String) (v : Json) : Json :=
  if py.normalize key ∈ p.fieldNames py then .str p.redactedValue
  else redactValue py (p.headerNames py) p.redactedValue (p.fieldNames py)
    (some (py.normalize key)) v

theorem recordToPayload_redacted {p : DLQPayloadPolicy} (hmode : p.mode = .redacted)
    (r : DLQRecord δ) :
    recordToPayload py (some p) r
      = (recordToPayload py none r).map (fun m => (m.1, masked py p m.1 m.2)) := by
  have hmap : ∀ payload : Payload, redactMembers py (p.headerNames py) p.redactedValue
      (p.fieldNames py) payload = payload.map (fun m => (m.1, masked py p m.1 m.2)) := by
    intro payload
    induction payload with
    | nil => rfl
    | cons m payload ih =>
      obtain ⟨k, v⟩ := m
      rw [redactMembers, List.map_cons, ih]
      rfl
  unfold recordToPayload DLQPayloadPolicy.apply
  dsimp only
  rw [hmode]
  exact hmap _

/-- The record of a payload whose values went through a function. -/
theorem payloadToRecord_map (g : String → Json → Json) (r : DLQRecord δ) :
    payloadToRecord py ((recordToPayload py none r).map (fun m => (m.1, g m.1 m.2))) = (do
      let createdAt ← py.fromisoformat (str py (g "created_at" (.str (py.isoformat r.createdAt))))
      let attempt ← int py (g "attempt" (.num r.attempt))
      let maxAttempts ← optionalInt py (g "max_attempts" (optionalNum r.maxAttempts))
      pure
        { pipelineId := str py (g "pipeline_id" (.str r.pipelineId))
          runId := str py (g "run_id" (.str r.runId))
          stage := str py (g "stage" (.str r.stage))
          errorType := str py (g "error_type" (.str r.errorType))
          errorMessage := str py (g "error_message" (.str r.errorMessage))
          record := g "record" r.record.normal
          originalRecord := g "original_record" r.originalRecord.normal
          processedRecord := g "processed_record" r.processedRecord.normal
          source := optionalStr py (g "source" (optional r.source))
          checkpoint := g "checkpoint" r.checkpoint.normal
          details := g "details" r.details.normal
          middleware := optionalStr py (g "middleware" (optional r.middleware))
          sink := optionalStr py (g "sink" (optional r.sink))
          createdAt
          attempt
          maxAttempts
          storageId := none }) := by
  unfold payloadToRecord recordToPayload payloadOf
  cases r.maxAttempts <;>
    simp [createdAtText, Dlq.payloadToRecord, Payload.item, Payload.value, Json.find,
      serializeJson_eq, optionalNum, bind, Except.bind, pure, Except.pure, coerceDatetime]

section Masked

variable {p : DLQPayloadPolicy}

theorem masked_masked (hplain : Plain py (p.headerNames py)) (key : String) (v : Json) :
    masked py p key (masked py p key v) = masked py p key v := by
  unfold masked
  split
  next => rfl
  next => exact redactValue_redactValue hplain _ _ v

theorem normal_masked (key : String) {v : Json} (h : v.normal = v) :
    (masked py p key v).normal = masked py p key v := by
  unfold masked
  split
  next => rfl
  next => exact normal_redactValue _ _ h

/-- What is no list and no dict is replaced or stays. -/
theorem masked_scalar (key : String) {v : Json} (h : isContainer v = false) :
    masked py p key v
      = if py.normalize key ∈ p.fieldNames py then .str p.redactedValue else v := by
  unfold masked
  split
  next => rfl
  next =>
    cases v with
    | arr items => cases h
    | obj members => cases h
    | null | bool b | num n | float x | str s | other text => rfl

theorem str_masked (key text : String) :
    str py (masked py p key (.str (str py (masked py p key (.str text)))))
      = str py (masked py p key (.str text)) := by
  rw [masked_scalar key rfl, masked_scalar key rfl]
  split <;> rfl

theorem optionalStr_masked (key : String) (text : Option String) :
    optionalStr py (masked py p key (optional (optionalStr py (masked py p key (optional text)))))
      = optionalStr py (masked py p key (optional text)) := by
  have hscalar : ∀ text, isContainer (optional text) = false := by
    intro text
    cases text <;> rfl
  rw [masked_scalar key (hscalar _), masked_scalar key (hscalar _)]
  split
  next => rfl
  next => cases text <;> rfl

theorem normalMembers_recordToPayload (r : DLQRecord δ) :
    Json.normalMembers (recordToPayload py none r) = recordToPayload py none r := by
  unfold recordToPayload payloadOf
  cases r.maxAttempts <;> cases r.source <;> cases r.middleware <;> cases r.sink <;>
    simp [Json.normalMembers, Json.normal, serializeJson_eq, Json.normal_normal, optional]

/-- A payload that was redacted has a JSON form. -/
theorem normalMembers_redacted (hmode : p.mode = .redacted) (r : DLQRecord δ) :
    Json.normalMembers (recordToPayload py (some p) r) = recordToPayload py (some p) r := by
  have hmap : ∀ {payload : Payload}, Json.normalMembers payload = payload →
      Json.normalMembers (payload.map (fun m => (m.1, masked py p m.1 m.2)))
        = payload.map (fun m => (m.1, masked py p m.1 m.2)) := by
    intro payload hpayload
    induction payload with
    | nil => rfl
    | cons m payload ih =>
      obtain ⟨hm, hmembers⟩ := List.cons.inj hpayload
      rw [List.map_cons, Json.normalMembers, ih hmembers, normal_masked _ (Prod.mk.inj hm).2]
  rw [recordToPayload_redacted hmode]
  exact hmap (normalMembers_recordToPayload r)

/-- The text of a redacted record is its payload. -/
theorem decodeRecordPayloadJson_text (hmode : p.mode = .redacted) (r : DLQRecord δ) :
    decodeRecordPayloadJson py (some p) (text py (some p) r)
      = .ok (recordToPayload py (some p) r) := by
  have hfind : (Json.find "pipeline_id" (Json.normalMembers
      (recordToPayload py (some p) r))).isSome = true := by
    rw [normalMembers_redacted hmode, recordToPayload_redacted hmode]
    rfl
  unfold text
  dsimp only
  rw [if_neg (by rw [hmode]; decide), decodeRecordPayloadJson_clear hfind,
    normalMembers_redacted hmode]

/-- **A redacted record stays as it is** when it is redacted once more. -/
theorem payloadToRecord_redacted (hmode : p.mode = .redacted) (hplain : Plain py (p.headerNames py))
    {r redacted : DLQRecord δ}
    (h : payloadToRecord py (recordToPayload py (some p) r) = .ok redacted) :
    payloadToRecord py (recordToPayload py (some p) redacted) = .ok redacted := by
  rw [recordToPayload_redacted hmode, payloadToRecord_map] at h ⊢
  obtain ⟨createdAt, hcreated, h⟩ := exists_of_bind_eq_ok h
  obtain ⟨attempt, hattempt, h⟩ := exists_of_bind_eq_ok h
  obtain ⟨maxAttempts, hmax, h⟩ := exists_of_bind_eq_ok h
  cases h
  -- the three that are read again are replaced again, or are what was read
  have hcreated' : py.fromisoformat (str py (masked py p "created_at" (.str (py.isoformat createdAt))))
      = .ok createdAt := by
    rw [masked_scalar _ rfl] at hcreated ⊢
    split at hcreated
    next hkey => rw [if_pos hkey, hcreated]
    next hkey =>
      rw [if_neg hkey]
      exact py.fromisoformat_isoformat createdAt
  have hattempt' : int py (masked py p "attempt" (.num attempt)) = .ok attempt := by
    rw [masked_scalar _ rfl] at hattempt ⊢
    split at hattempt
    next hkey => rw [if_pos hkey, hattempt]
    next hkey =>
      rw [if_neg hkey]
      rfl
  have hscalar : ∀ n, isContainer (optionalNum n) = false := by
    intro n
    cases n <;> rfl
  have hmax' : optionalInt py (masked py p "max_attempts" (optionalNum maxAttempts))
      = .ok maxAttempts := by
    rw [masked_scalar _ (hscalar _)] at hmax ⊢
    split at hmax
    next hkey => rw [if_pos hkey, hmax]
    next hkey =>
      rw [if_neg hkey]
      cases maxAttempts <;> rfl
  have hvalue : ∀ key, ∀ v : Json, masked py p key (masked py p key v.normal).normal
      = masked py p key v.normal := by
    intro key v
    rw [normal_masked _ (Json.normal_normal v), masked_masked hplain]
  simp only [str_masked, optionalStr_masked, hvalue, hcreated', hattempt', hmax']
  rfl

end Masked

/-- **What a policy keeps is read back from its text.** -/
def KeepsRecords (py : Python δ) (policy : Option DLQPayloadPolicy) : Prop :=
  ∀ {storageKey : String} {r stored : DLQRecord δ}, r.storageId = some (.key storageKey) →
    (∀ v ∈ r.values, v.normal = v) → applyPayloadPolicy py policy (some r) = .ok (some stored) →
    @Kept δ py policy storageKey stored

theorem keepsRecords_of_ne (hmode : ∀ p ∈ policy, p.mode ≠ .redacted) :
    KeepsRecords py policy := by
  intro storageKey r stored hid hnormal h
  have hstored : stored = r := by
    cases policy with
    | none => exact (Option.some.inj (Except.ok.inj h)).symm
    | some p =>
      unfold applyPayloadPolicy at h
      dsimp only at h
      rw [if_neg (hmode p rfl)] at h
      exact (Option.some.inj (Except.ok.inj h)).symm
  rw [hstored]
  exact kept_of_normal hmode hid hnormal

theorem keepsRecords_redacted {p : DLQPayloadPolicy} (hmode : p.mode = .redacted)
    (hplain : Plain py (p.headerNames py)) : KeepsRecords py (some p) := by
  intro storageKey r stored hid _ h
  unfold applyPayloadPolicy at h
  dsimp only at h
  rw [if_pos hmode] at h
  obtain ⟨redacted, hredacted, h⟩ := exists_of_bind_eq_ok h
  cases h
  have hagain := payloadToRecord_redacted hmode hplain hredacted
  have hnone : redacted.storageId = none := storageId_of_payloadToRecord hredacted
  have hread := @decodeRecordPayloadJson_text δ py p hmode redacted
  refine ⟨hid, ?_⟩
  rw [show text py (some p) { redacted with storageId := r.storageId } = text py (some p) redacted
    from rfl, hread]
  show payloadToRecord py _ = _
  rw [hagain, ← hnone]

theorem mem_live_insert {memory : Dict String (ℕ × Option (DLQRecord δ))} {storageKey : String}
    {sequence : ℕ} {stored : Option (DLQRecord δ)} {x : String × ℕ × DLQRecord δ}
    (h : x ∈ live (memory.insert storageKey (sequence, stored))) :
    (∃ r, stored = some r ∧ x = (storageKey, sequence, r)) ∨ x ∈ live memory := by
  unfold live at h ⊢
  rw [AList.entries_insert, List.mem_filterMap] at h
  obtain ⟨e, he, hx⟩ := h
  rcases List.mem_cons.1 he with rfl | he
  · obtain ⟨r, hr, rfl⟩ := Option.map_eq_some_iff.1 hx
    exact .inl ⟨r, hr, rfl⟩
  · exact .inr (List.mem_filterMap.2 ⟨e, (List.kerase_sublist _ _).subset he, hx⟩)

/-- Only a record becomes a record. -/
theorem exists_of_applyPayloadPolicy {r : Option (DLQRecord δ)} {stored : DLQRecord δ}
    (h : applyPayloadPolicy py policy r = .ok (some stored)) : ∃ r', r = some r' := by
  cases r with
  | none => cases h
  | some r' => exact ⟨r', rfl⟩

/-- The messages leave records in memory that are read back from their texts. -/
theorem kept_of_foldlM (hpolicy : KeepsRecords py policy)
    {digest : Payload → String} {messages : List String} {s s' : ℕ × KafkaDLQCompactionState δ}
    (hs : s.2.conn = none) (hkept : ∀ x ∈ live s.2.memory, @Kept δ py policy x.1 x.2.2)
    (h : messages.foldlM (scanMessage py policy digest none) s = .ok s') :
    s'.2.conn = none ∧ ∀ x ∈ live s'.2.memory, @Kept δ py policy x.1 x.2.2 := by
  induction messages generalizing s with
  | nil =>
    cases h
    exact ⟨hs, hkept⟩
  | cons message messages ih =>
    rw [List.foldlM_cons] at h
    obtain ⟨s₁, hmessage, h⟩ := exists_of_bind_eq_ok h
    obtain ⟨⟨operation, storageKey, r⟩, hdecode, hmessage⟩ := exists_of_bind_eq_ok hmessage
    obtain ⟨state, hupdate, hmessage⟩ := exists_of_bind_eq_ok hmessage
    obtain ⟨stored, hstored, rfl⟩ := exists_of_update_memory hs hupdate
    cases hmessage
    refine @ih (s.1 + 1, { s.2 with memory := s.2.memory.insert storageKey (s.1, stored) }) hs ?_ h
    intro x hx
    rcases mem_live_insert hx with ⟨r', rfl, rfl⟩ | hx
    · obtain ⟨r, hr⟩ := exists_of_applyPayloadPolicy hstored
      rw [hr] at hstored
      split at hr
      next => cases hr
      next =>
        subst hr
        obtain ⟨hid, hnormal⟩ := of_decodeDlqEnvelope hdecode
        exact hpolicy hid hnormal hstored
    · exact hkept x hx

/-- What is found after a spill is what is found in memory. -/
theorem scan_eq_memory (hpolicy : KeepsRecords py policy) (digest : Payload → String)
    (spillThreshold : Option ℤ) (messages : List String) :
    scan py policy digest spillThreshold messages = scan py policy digest none messages := by
  obtain ⟨spilled, hfold⟩ := @foldlM_image δ py policy digest spillThreshold messages false (0, {}) rfl
  unfold scan
  rw [show ((0, {}) : ℕ × KafkaDLQCompactionState δ) = (0, image py policy false {}) from rfl, hfold]
  cases hmemory : messages.foldlM (scanMessage py policy digest none)
    ((0, {}) : ℕ × KafkaDLQCompactionState δ) with
  | error e => exact congrArg (fun x => x >>= _) hmemory.symm
  | ok s =>
    have hempty : ∀ x ∈ live (∅ : Dict String (ℕ × Option (DLQRecord δ))),
        @Kept δ py policy x.1 x.2.2 := fun x hx => absurd hx List.not_mem_nil
    obtain ⟨hs, hkept⟩ := kept_of_foldlM hpolicy rfl hempty hmemory
    rw [show image py policy false {} = ({} : KafkaDLQCompactionState δ) from rfl, hmemory]
    exact liveRecords_image hs hkept spilled

/-- Every policy keeps what it has made of a record, unless a redacted header name is the text of
a list or a dict. -/
theorem keepsRecords_of_plain
    (hplain : ∀ p ∈ policy, p.mode = .redacted → Plain py (p.headerNames py)) :
    KeepsRecords py policy := by
  cases policy with
  | none => exact @keepsRecords_of_ne δ py none nofun
  | some p =>
    by_cases hmode : p.mode = .redacted
    · exact keepsRecords_redacted hmode (hplain p rfl hmode)
    · refine keepsRecords_of_ne ?_
      rintro q ⟨⟩
      exact hmode

/-! ## Puts -/

theorem scanMessage_put {digest : Payload → String} {spillThreshold : Option ℤ}
    {message storageKey : String} {r : Option (DLQRecord δ)}
    {s : ℕ × KafkaDLQCompactionState δ} {state : KafkaDLQCompactionState δ}
    (hdecode : decodeDlqEnvelope py digest policy message = .ok ("put", storageKey, r))
    (hupdate : update py policy spillThreshold s.2 s.1 storageKey r = .ok state) :
    scanMessage py policy digest spillThreshold s message = .ok (s.1 + 1, state) := by
  unfold scanMessage
  rw [hdecode]
  dsimp only [bind, Except.bind]
  rw [if_neg (by decide), hupdate]
  rfl

/-- A put goes to memory. -/
theorem scanMessage_memory {digest : Payload → String} {message storageKey : String}
    {r stored : DLQRecord δ} {n : ℕ} {memory : Dict String (ℕ × Option (DLQRecord δ))}
    (hdecode : decodeDlqEnvelope py digest policy message = .ok ("put", storageKey, some r))
    (hstored : applyPayloadPolicy py policy (some r) = .ok (some stored)) :
    scanMessage py policy digest none (n, { memory := memory }) message
      = .ok (n + 1, { memory := memory.insert storageKey (n, some stored) }) := by
  refine scanMessage_put hdecode ?_
  unfold update
  rw [hstored]
  rfl

/-- Two puts that go to memory. -/
theorem scan_pair {digest : Payload → String} {message message' key key' : String}
    {r r' stored stored' : DLQRecord δ}
    (hdecode : decodeDlqEnvelope py digest policy message = .ok ("put", key, some r))
    (hstored : applyPayloadPolicy py policy (some r) = .ok (some stored))
    (hdecode' : decodeDlqEnvelope py digest policy message' = .ok ("put", key', some r'))
    (hstored' : applyPayloadPolicy py policy (some r') = .ok (some stored')) :
    scan py policy digest none [message, message'] = liveRecords py policy
      { memory := (AList.insert key' (1, some stored') (AList.insert key (0, some stored) ∅)) } := by
  unfold scan
  rw [List.foldlM_cons, show ((0, {}) : ℕ × KafkaDLQCompactionState δ) = (0, { memory := ∅ })
    from rfl, scanMessage_memory hdecode hstored]
  show (List.foldlM _ _ [message'] >>= _) = _
  rw [List.foldlM_cons, scanMessage_memory hdecode' hstored']
  rfl

/-- A redacted record whose numbers and time of creation stay. -/
theorem payloadToRecord_masked {p : DLQPayloadPolicy} (hmode : p.mode = .redacted)
    (hkeys : ∀ key ∈ ["created_at", "attempt", "max_attempts"],
      py.normalize key ∉ p.fieldNames py) (r : DLQRecord δ) :
    ∃ redacted, payloadToRecord py (recordToPayload py (some p) r) = .ok redacted
      ∧ redacted.record = masked py p "record" r.record.normal := by
  rw [recordToPayload_redacted hmode, payloadToRecord_map]
  have hscalar : ∀ key ∈ ["created_at", "attempt", "max_attempts"], ∀ v, isContainer v = false →
      masked py p key v = v := by
    intro key hkey v hv
    rw [masked_scalar key hv, if_neg (hkeys key hkey)]
  have hnum : isContainer (optionalNum r.maxAttempts) = false := by
    cases r.maxAttempts <;> rfl
  have hmax : optionalInt py (optionalNum r.maxAttempts) = .ok r.maxAttempts := by
    cases r.maxAttempts <;> rfl
  rw [hscalar "created_at" (by simp) _ rfl, hscalar "attempt" (by simp) _ rfl,
    hscalar "max_attempts" (by simp) _ hnum, hmax]
  show ∃ redacted, (py.fromisoformat (py.isoformat r.createdAt) >>= fun createdAt => _) = _ ∧ _
  rw [py.fromisoformat_isoformat]
  exact ⟨_, rfl, rfl⟩

/-- Where the numbers and the time of creation are not redacted, every record is kept. -/
theorem applyPayloadPolicy_redacted {p : DLQPayloadPolicy} (hmode : p.mode = .redacted)
    (hkeys : ∀ key ∈ ["created_at", "attempt", "max_attempts"],
      py.normalize key ∉ p.fieldNames py) (storageKey : String) (r : DLQRecord δ) :
    ∃ redacted, applyPayloadPolicy py (some p) (some (keyed storageKey r))
        = .ok (some (keyed storageKey redacted))
      ∧ redacted.record = masked py p "record" r.record.normal := by
  obtain ⟨redacted, hredacted, hrecord⟩ := payloadToRecord_masked hmode hkeys (keyed storageKey r)
  refine ⟨redacted, ?_, hrecord⟩
  unfold applyPayloadPolicy
  dsimp only
  rw [if_pos hmode, hredacted]
  rfl

/-- A policy that redacts one header. -/
def bearing : DLQPayloadPolicy where
  mode := .redacted
  redactHeaders := ["authorization"]
  includeCommonSensitiveNames := false
  cipher := .reverse

/-- A record with an authorization among its headers. -/
def authorized (token : String) : DLQRecord String where
  pipelineId := "orders"
  runId := "run"
  stage := "parse"
  errorType := "ValueError"
  errorMessage := "bad order"
  record := .obj [("headers", .arr [.obj [("key", .str "Authorization"), ("value", .str token)]])]
  originalRecord := .null
  processedRecord := .null
  source := none
  checkpoint := .null
  details := .null
  middleware := none
  sink := none
  createdAt := "2024-01-01T00:00:00+00:00"
  attempt := 0
  maxAttempts := none
  storageId := none

/-- The put of the record. -/
def authorizedPut (storageKey token : String) : String :=
  serialize ([("op", .str "put"), ("storage_key", .str storageKey)]
    ++ [("payload", .obj (recordToPayload .singleQuoted none (authorized token)))])

/-- The text of a container, in normal form, begins with a bracket. -/
theorem head?_normalize_of_head? {text : String} {c : Char} (hc : c.isWhitespace = false)
    (h : text.toList.head? = some c) :
    (Python.singleQuoted.normalize text).toList.head? = some c.toLower := by
  obtain ⟨rest, htext⟩ := List.head?_eq_some_iff.1 h
  have hfront : text.toList.dropWhile Char.isWhitespace = c :: rest := by
    rw [htext, List.dropWhile_cons_of_neg (by rw [hc]; exact Bool.false_ne_true)]
  have hback : ∃ front, (c :: rest).reverse.dropWhile Char.isWhitespace = front ++ [c] := by
    rw [List.reverse_cons, List.dropWhile_append]
    split
    · exact ⟨[], List.dropWhile_cons_of_neg (by rw [hc]; exact Bool.false_ne_true)⟩
    · exact ⟨_, rfl⟩
  obtain ⟨front, hback⟩ := hback
  show (String.ofList (((text.toList.dropWhile Char.isWhitespace).reverse.dropWhile
    Char.isWhitespace).reverse.map Char.toLower)).toList.head? = _
  rw [hfront, hback, String.toList_ofList]
  simp

theorem plain_bearing : Plain .singleQuoted (bearing.headerNames .singleQuoted) := by
  intro v hv hmem
  have hname : Python.singleQuoted.normalize (str .singleQuoted v)
      = Python.singleQuoted.normalize "authorization" := List.mem_singleton.1 hmem
  have hhead : (Python.singleQuoted.normalize "authorization").toList.head? = some 'a' := by
    decide +kernel
  have hbracket : ∃ c, c.isWhitespace = false ∧ c.toLower ≠ 'a'
      ∧ (str .singleQuoted v).toList.head? = some c := by
    cases v with
    | arr items =>
      refine ⟨'[', by decide, by decide, ?_⟩
      show (String.ofList ((Json.write (.arr items)).map _)).toList.head? = _
      rw [String.toList_ofList, Json.write]
      rfl
    | obj members =>
      refine ⟨Json.openBrace, by decide, by decide, ?_⟩
      show (String.ofList ((Json.write (.obj members)).map _)).toList.head? = _
      rw [String.toList_ofList, Json.write]
      rfl
    | null | bool _ | num _ | float _ | str _ | other _ => cases hv
  obtain ⟨c, hc, hlower, htext⟩ := hbracket
  rw [← hname, head?_normalize_of_head? hc htext] at hhead
  exact hlower (Option.some.inj hhead)

theorem applied_authorized (storageKey token : String) :
    ∃ redacted, applyPayloadPolicy .singleQuoted (some bearing)
        (some (keyed storageKey (normalized (authorized token))))
        = .ok (some (keyed storageKey redacted))
      ∧ redacted.record = .obj [("headers", .arr [.obj [("key", .str "Authorization"),
        ("value", .obj [("data", .str "[REDACTED]"), ("encoding", .str "redacted")])]])] := by
  have hkeys : ∀ key ∈ ["created_at", "attempt", "max_attempts"],
      Python.singleQuoted.normalize key ∉ bearing.fieldNames .singleQuoted := fun _ _ =>
    List.not_mem_nil
  obtain ⟨redacted, hredacted, hrecord⟩ := applyPayloadPolicy_redacted rfl hkeys storageKey
    (normalized (authorized token))
  refine ⟨redacted, hredacted, hrecord.trans ?_⟩
  have hname : Python.singleQuoted.normalize "Authorization"
      ∈ bearing.headerNames .singleQuoted := by decide +kernel
  have hheaders : Python.singleQuoted.normalize "headers" = "headers" := by decide +kernel
  have hfields : bearing.fieldNames .singleQuoted = [] := rfl
  unfold masked
  simp [normalized, authorized, Json.normal, Json.normalMembers, Json.normalItems, redactValue,
    redactMembers, redactHeaderItems, Json.find, Json.assign, str, hfields, hheaders, hname,
    show bearing.redactedValue = "[REDACTED]" from rfl]

theorem decodeDlqEnvelope_authorizedPut (storageKey token : String) :
    decodeDlqEnvelope .singleQuoted (fun _ => "") (some bearing) (authorizedPut storageKey token)
      = .ok ("put", storageKey, some (keyed storageKey (normalized (authorized token)))) :=
  decodeDlqEnvelope_clear _ _ storageKey (authorized token)

/-- What is found of the two in memory. -/
theorem exists_scan_authorized : ∃ found,
    scan Python.singleQuoted (some bearing) (fun _ => "") none
        [authorizedPut "a" "Bearer one", authorizedPut "b" "Bearer two"] = .ok found
      ∧ found.length = 2
      ∧ ∀ x ∈ found, x.2.record = .obj [("headers", .arr [.obj [("key", .str "Authorization"),
        ("value", .obj [("data", .str "[REDACTED]"), ("encoding", .str "redacted")])]])] := by
  obtain ⟨one, hone, hrecord⟩ := applied_authorized "a" "Bearer one"
  obtain ⟨two, htwo, hrecord'⟩ := applied_authorized "b" "Bearer two"
  have hmemory : scan Python.singleQuoted (some bearing) (fun _ => "") none
      [authorizedPut "a" "Bearer one", authorizedPut "b" "Bearer two"]
      = liveRecords .singleQuoted (some bearing)
        { memory := (AList.insert "b" (1, some (keyed "b" two))
          (AList.insert "a" (0, some (keyed "a" one)) ∅)) } :=
    scan_pair (decodeDlqEnvelope_authorizedPut "a" "Bearer one") hone
      (decodeDlqEnvelope_authorizedPut "b" "Bearer two") htwo
  refine ⟨_, hmemory.trans (liveRecords_memory rfl), ?_, ?_⟩
  · rw [List.length_map, List.length_mergeSort]
    rfl
  · intro x hx
    obtain ⟨y, hy, rfl⟩ := List.mem_map.1 hx
    rw [List.mem_mergeSort] at hy
    have hy : y ∈ [("b", 1, keyed "b" two), ("a", 0, keyed "a" one)] := hy
    rcases List.mem_pair.1 hy with rfl | rfl
    · exact hrecord'
    · exact hrecord

/-! ## With a spill and without -/

/-- A put that is kept in memory. -/
theorem scan_memory {digest : Payload → String} {message storageKey : String}
    {r stored : DLQRecord δ}
    (hdecode : decodeDlqEnvelope py digest policy message = .ok ("put", storageKey, some r))
    (hstored : applyPayloadPolicy py policy (some r) = .ok (some stored)) :
    scan py policy digest none [message] = .ok [(0, stored)] := by
  unfold scan
  rw [List.foldlM_cons, show ((0, {}) : ℕ × KafkaDLQCompactionState δ) = (0, { memory := ∅ })
    from rfl, scanMessage_memory hdecode hstored]
  show liveRecords py policy { memory := AList.insert storageKey (0, some stored) ∅ } = _
  rw [liveRecords_memory rfl]
  show Except.ok (List.map _ (List.mergeSort [(storageKey, 0, stored)] _)) = _
  rw [List.mergeSort_singleton]
  rfl

/-- A put that goes to the table. -/
theorem scan_table {digest : Payload → String} {message storageKey : String}
    {r stored again : DLQRecord δ}
    (hdecode : decodeDlqEnvelope py digest policy message = .ok ("put", storageKey, some r))
    (hstored : applyPayloadPolicy py policy (some r) = .ok (some stored))
    (hread : readRow py policy (storageKey, 0, text py policy stored) = .ok (0, again)) :
    scan py policy digest (some 0) [message] = .ok [(0, again)] := by
  have hupdate : update py policy (some 0) {} 0 storageKey (some r)
      = .ok { conn := some (AList.insert storageKey ⟨0, some (text py policy stored), false⟩ ∅) } := by
    unfold update
    rw [hstored]
    show keep py policy { conn := some ∅ } 0 storageKey (some stored) = _
    unfold keep
    dsimp only
    rw [rowOf_eq]
    rfl
  unfold scan
  rw [List.foldlM_cons, scanMessage_put hdecode hupdate]
  show List.mapM (readRow py policy)
    (List.mergeSort [(storageKey, 0, text py policy stored)] _) = _
  rw [List.mergeSort_singleton, List.mapM_cons, hread]
  rfl

/-- A header whose name is a dict with a header in it. -/
def nested : DLQRecord String where
  pipelineId := "orders"
  runId := "run"
  stage := "parse"
  errorType := "ValueError"
  errorMessage := "bad order"
  record := .obj [("headers", .arr [.obj [
    ("key", .obj [("headers", .arr [.obj [("key", .str "cookie")]])]), ("value", .str "v")]])]
  originalRecord := .null
  processedRecord := .null
  source := none
  checkpoint := .null
  details := .null
  middleware := none
  sink := none
  createdAt := "2024-01-01T00:00:00+00:00"
  attempt := 0
  maxAttempts := none
  storageId := none

/-- A policy with the text that the name has once it is redacted, in either order of the
entries. -/
def namingDicts : DLQPayloadPolicy where
  mode := .redacted
  redactHeaders := [
    "\x7b'headers': [\x7b'key': 'cookie', 'value': \x7b'encoding': 'redacted', 'data': 'x'\x7d\x7d]\x7d",
    "\x7b'headers': [\x7b'key': 'cookie', 'value': \x7b'data': 'x', 'encoding': 'redacted'\x7d\x7d]\x7d"]
  redactedValue := "x"
  cipher := .reverse

/-- The put of the record. -/
def nestedPut : String :=
  serialize ([("op", .str "put"), ("storage_key", .str "k")]
    ++ [("payload", .obj (recordToPayload .singleQuoted none nested))])

/-- The value of the first header is a text. -/
def showsHeader (v : Json) : Bool :=
  match v.get "headers" with
  | some (.arr (item :: _)) =>
    match item.get "value" with
    | some (.str _) => true
    | _ => false
  | _ => false

end KafkaPayloads

end Dlq

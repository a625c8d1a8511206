import AgoraPlugins.Postgres.Dlq
import AgoraPlugins.Redis.DlqIndex

/-!
# The attempts of replayed records

Both stores write the attempts twice: in a field of their own, which a replay updates,
and in the payload, which it does not. A record that is read from its fields has the
attempts of the field, so each replay is noticed. A record that is read from its
envelope has those of the payload, which are the attempts it was written with, however
often it has been replayed.

So replays are counted if the payload is not encrypted. They are not if it is, unless
the attempts are the largest number there can be in the column of Postgres: then no
replay succeeds. A value that is stored in clear and looks like an envelope makes the
record unreadable.
-/

namespace Dlq

variable {δ : Type} {py : Python δ}

/-! ## Redis -/

namespace RedisDLQ

open RedisKeyspace RedisPayloads

variable {cfg : RedisDLQ} {key : String} {s : Store}

variable (py cfg) in
/-- What a scan makes of the record with this key: it goes through the index, and leaves
out what has no hash. -/
def scan (key : String) (s : Store) : Option (DLQRecord δ) :=
  if key ∈ s.list (indexKey cfg.keyPrefix) then
    (s.hashes.lookup key).bind (fun hash => (hashToRecord py cfg.payloadPolicy hash).toOption)
  else none

variable (py cfg) in
/-- The record with this key. -/
def queue (key : String) : ReplayQueue δ Store where
  scan := cfg.scan py key
  replay r s := (existingRecordKey r).toOption.map (fun _ => replay r s)

/-- **The record is listed**, and this is its hash. -/
structure Stored (cfg : RedisDLQ) (key : String) (hash : Hash) (s : Store) : Prop where
  listed : key ∈ s.list (indexKey cfg.keyPrefix)
  stored : s.hashes.lookup key = some hash
  storageKey : hash.lookup "storage_key" = some key

theorem Stored.scan_eq {hash : Hash} (h : Stored cfg key hash s) :
    cfg.scan py key s = (hashToRecord py cfg.payloadPolicy hash).toOption := by
  unfold scan
  rw [if_pos h.listed, h.stored]
  rfl

variable (py) in
/-- **A replay of a record with its key** updates the attempts in its hash. -/
theorem Stored.replay {hash : Hash} (h : Stored cfg key hash s) (hkey : key ≠ "")
    {r : DLQRecord δ} (hr : r.storageId = some (.key key)) :
    ∃ t, (cfg.queue py key).replay r s = some t
      ∧ Stored cfg key (hash.insert "attempt" (Json.dumps (.num r.replayed.attempt))) t := by
  have hexisting : existingRecordKey r = .ok key := by
    unfold existingRecordKey
    rw [hr]
    dsimp only
    rw [if_neg hkey]
    rfl
  refine ⟨s.hset key [("attempt", Json.dumps (.num r.replayed.attempt))], ?_, ⟨?_, ?_, ?_⟩⟩
  · show (existingRecordKey r).toOption.map (fun _ => RedisDLQ.replay r s) = _
    unfold RedisDLQ.replay
    rw [hexisting]
    rfl
  · rw [Store.list_hset]
    exact h.listed
  · rw [Store.lookup_hset, if_pos rfl, h.stored]
    rfl
  · rw [AList.lookup_insert_ne (by decide)]
    exact h.storageKey

/-- **Replays are counted** for a record in clear that can be read. -/
theorem Stored.countsReplays {hash : Hash} (h : Stored cfg key hash s) (hkey : key ≠ "")
    (hclear : isEnvelope (decoded hash "record") = false) {r : DLQRecord δ}
    (hr : fieldsToRecord py hash = .ok r) : (cfg.queue py key).CountsReplays s := by
  have hscan : ∀ {t : Store} {hash : Hash}, Stored cfg key hash t →
      isEnvelope (decoded hash "record") = false →
      (cfg.queue py key).scan t = (fieldsToRecord py hash).toOption := by
    intro t hash ht hclear
    rw [← hashToRecord_of_not_isEnvelope hclear]
    exact ht.scan_eq
  refine ReplayQueue.countsReplays_of_replayed (r := r) (I := fun s => ∃ hash,
    Stored cfg key hash s ∧ isEnvelope (decoded hash "record") = false) ?_ ⟨hash, h, hclear⟩ ?_
  · -- one replay: the attempts of the hash are the only thing that changes
    rintro s r t ⟨hash, h, hclear⟩ hr ht
    rw [hscan h hclear] at hr
    have hread : fieldsToRecord py hash = .ok r := eq_ok_of_toOption hr
    have hsid : r.storageId = some (.key key) := by
      obtain ⟨payload, _, hpayload⟩ := exists_of_bind_eq_ok hread
      rw [storageId_of_payloadToRecord hpayload, h.storageKey]
      rfl
    obtain ⟨u, hu, hstored⟩ := h.replay py hkey hsid
    cases hu.symm.trans ht
    have hclear' : isEnvelope (decoded
        (hash.insert "attempt" (Json.dumps (.num r.replayed.attempt))) "record") = false := by
      unfold decoded
      rw [AList.lookup_insert_ne (by decide)]
      exact hclear
    refine ⟨⟨_, hstored, hclear'⟩, ?_⟩
    rw [hscan hstored hclear', fieldsToRecord_insert_attempt hread]
    rfl
  · rw [hscan h hclear, hr]
    rfl

/-- **They are not counted** for an encrypted record. -/
theorem Stored.not_countsReplays {hash : Hash} (h : Stored cfg key hash s) (hkey : key ≠ "")
    {policy : DLQPayloadPolicy} (hpolicy : cfg.payloadPolicy = some policy)
    (hmode : policy.mode = .encrypted) {r : DLQRecord δ}
    (hrecord : hash.lookup "record" = some (Json.dumps (.obj (policy.envelope
      (policy.cipher.encrypt (Json.dumps (.obj (recordToPayload py r)))))))) :
    ¬ (cfg.queue py key).CountsReplays s := by
  obtain ⟨r', hr', _, hsid⟩ := @exists_record_of_normal δ py (some (.key key)) r
  have hscan : ∀ {t : Store} {hash : Hash}, Stored cfg key hash t →
      hash.lookup "record" = some (Json.dumps (.obj (policy.envelope
        (policy.cipher.encrypt (Json.dumps (.obj (recordToPayload py r))))))) →
      (cfg.queue py key).scan t = some r' := by
    intro t hash ht hrecord
    have hread : hashToRecord py cfg.payloadPolicy hash = .ok r' := by
      rw [hpolicy, hashToRecord_of_encrypted hmode hrecord, ht.storageKey]
      exact hr'
    show cfg.scan py key t = _
    rw [ht.scan_eq, hread]
    rfl
  obtain ⟨t, ht, hstored⟩ := h.replay py hkey hsid
  refine ReplayQueue.not_countsReplays_of_scan_eq (hscan h hrecord) ht (hscan hstored ?_)
  rw [AList.lookup_insert_ne (by decide)]
  exact hrecord

variable (py) in
theorem recordKey_ne_empty (keyPrefix : String) (r : DLQRecord δ) (uuid : String) :
    recordKey py keyPrefix r uuid ≠ "" := by
  have hgenerated : keyPrefix ++ ":" ++ r.pipelineId ++ ":" ++ r.runId ++ ":" ++ r.stage ++ ":"
      ++ py.isoformat r.createdAt ++ ":" ++ uuid ≠ "" := by
    intro h
    have hlength := congrArg String.length h
    simp at hlength
  unfold recordKey
  dsimp only
  split
  next =>
    split
    next => exact hgenerated
    next h => exact h
  next => exact hgenerated
  next => exact hgenerated

/-- **A record that is written is stored**, as long as it is listed then. -/
theorem stored_write {r : DLQRecord δ} {uuid : String} {mapping : List (String × String)}
    (hmapping : recordToHash py cfg.payloadPolicy r = .ok mapping)
    (hlisted : recordKey py cfg.keyPrefix r uuid
      ∈ (cfg.write py r uuid s).list (indexKey cfg.keyPrefix)) :
    ∃ hash, Stored cfg (recordKey py cfg.keyPrefix r uuid) hash (cfg.write py r uuid s)
      ∧ ∀ name text, Dict.last name mapping = some text → hash.lookup name = some text := by
  have hhash : cfg.recordHash py r (recordKey py cfg.keyPrefix r uuid) = .ok
      (mapping ++ ("storage_key", recordKey py cfg.keyPrefix r uuid)
        :: indexMetadata cfg.keyPrefix r.pipelineId r.stage) := by
    unfold recordHash
    rw [hmapping]
    rfl
  refine ⟨((s.hashes.lookup (recordKey py cfg.keyPrefix r uuid)).getD ∅).update
      (mapping ++ ("storage_key", recordKey py cfg.keyPrefix r uuid)
        :: indexMetadata cfg.keyPrefix r.pipelineId r.stage),
    ⟨hlisted, ?_, ?_⟩, fun name text => lookup_of_written hmapping name text⟩
  · unfold write
    dsimp only
    rw [hhash]
    dsimp only
    rw [hashes_upsertScript, Store.lookup_hset, if_pos rfl]
  · rw [Dict.lookup_update, Dict.last_append]
    rfl

/-- **When Redis counts replays**: when the record is stored in clear, and its value does
not look like an envelope. -/
theorem countsReplays_write_iff {r : DLQRecord δ} {uuid : String}
    {mapping : List (String × String)}
    (hmapping : recordToHash py cfg.payloadPolicy r = .ok mapping)
    (hlisted : recordKey py cfg.keyPrefix r uuid
      ∈ (cfg.write py r uuid s).list (indexKey cfg.keyPrefix)) :
    (cfg.queue py (recordKey py cfg.keyPrefix r uuid)).CountsReplays (cfg.write py r uuid s)
      ↔ encrypts cfg.payloadPolicy = false
        ∧ isEnvelope (storedValue py cfg.payloadPolicy r) = false := by
  obtain ⟨hash, hstored, hhash⟩ := stored_write hmapping hlisted
  have hkey := recordKey_ne_empty py cfg.keyPrefix r uuid
  cases hencrypts : encrypts cfg.payloadPolicy with
  | false =>
    have hdecoded := decoded_record hencrypts hmapping hhash
    -- a value that looks like an envelope is taken for one that was encrypted
    cases henvelope : isEnvelope (storedValue py cfg.payloadPolicy r) with
    | false =>
      obtain ⟨r', hr'⟩ :=
        exists_fieldsToRecord_eq (written_of_recordToHash hencrypts hmapping) hhash
      refine ⟨fun _ => ⟨rfl, rfl⟩, fun _ => hstored.countsReplays hkey ?_ hr'⟩
      rw [hdecoded, henvelope]
    | true =>
      refine ⟨?_, fun h => nomatch h.2⟩
      rintro ⟨r', hr', _⟩
      have hread : hashToRecord py cfg.payloadPolicy hash = .ok r' := by
        refine eq_ok_of_toOption ?_
        rw [← hstored.scan_eq]
        exact hr'
      exact absurd hread (hashToRecord_ne_ok hencrypts (by rw [hdecoded, henvelope]) r')
  | true =>
    refine ⟨fun h => ?_, fun h => nomatch h.1⟩
    cases hpolicy : cfg.payloadPolicy with
    | none =>
      rw [hpolicy] at hencrypts
      cases hencrypts
    | some policy =>
      rw [hpolicy] at hencrypts hmapping
      have hmode : policy.mode = .encrypted := of_decide_eq_true hencrypts
      exact absurd h (hstored.not_countsReplays hkey hpolicy hmode
        (hhash _ _ (record_of_recordToHash hmode hmapping)))

/-- A record that was not there is listed when it is written. -/
theorem listed_of_new {r : DLQRecord δ} {uuid : String} {mapping : List (String × String)}
    (hmapping : recordToHash py cfg.payloadPolicy r = .ok mapping)
    (hnew : s.hashes.lookup (recordKey py cfg.keyPrefix r uuid) = none) :
    recordKey py cfg.keyPrefix r uuid
      ∈ (cfg.write py r uuid s).list (indexKey cfg.keyPrefix) := by
  have hcount : 0 < (cfg.write py r uuid s).count (indexKey cfg.keyPrefix)
      (recordKey py cfg.keyPrefix r uuid) := by
    unfold write recordHash
    dsimp only
    rw [hmapping]
    show 0 < (Store.upsertScript _ _ _ _ _).count _ _
    rw [count_upsertScript_of_none hnew, if_pos rfl, List.count_cons_self]
    omega
  exact List.count_pos_iff.1 hcount

end RedisDLQ

/-! ## Postgres -/

namespace PostgresDLQ

open PostgresPayloads

variable [DecidableEq δ] {sha256 : String → String} {cfg : PostgresDLQ} {id : ℕ} {t : Table δ}

variable (py cfg) in
/-- The record with this id. -/
def queue (id : ℕ) : ReplayQueue δ (Table δ) where
  scan := cfg.scan py id
  replay r t := (replay r t).toOption

omit [DecidableEq δ] in
theorem scan_eq {row : Columns δ Json} (h : t.row id = some row) :
    cfg.scan py id t
      = (rowToRecord py cfg.payloadPolicy (some (.row id)) row).toOption := by
  unfold scan
  rw [h]
  rfl

/-- **A replay of a record with its id** is an update of the attempts in its row. -/
theorem queue_replay {r : DLQRecord δ} (hr : r.storageId = some (.row id)) :
    (cfg.queue py id).replay r t = if IsInteger r.replayed.attempt then
      some (t.withAttempt r.replayed.attempt (some id)) else none := by
  show (PostgresDLQ.replay r t).toOption = _
  unfold PostgresDLQ.replay rowIdOf Table.setAttempt
  rw [hr]
  show (if IsInteger r.replayed.attempt then
    pure (t.withAttempt r.replayed.attempt (some id)) else throw outOfRange :
      Except Exc (Table δ)).toOption = _
  split <;> rfl

/-- **Replays are counted** for a record in clear that can be read. -/
theorem countsReplays_of_clear {row : Columns δ Json} (h : t.row id = some row)
    (hclear : isEnvelope (decodeJsonValue row.record) = false) :
    (cfg.queue py id).CountsReplays t := by
  have hscan : ∀ {t : Table δ} {row : Columns δ Json}, t.row id = some row →
      isEnvelope (decodeJsonValue row.record) = false →
      (cfg.queue py id).scan t = some (assembled py (some (.row id)) row) := by
    intro t row ht hclear
    show cfg.scan py id t = _
    rw [scan_eq ht, rowToRecord, storedToRecord_of_not_isEnvelope hclear,
      payloadToRecord_rowToPayload]
    rfl
  refine ReplayQueue.countsReplays_of_replayed (I := fun t => ∃ row, t.row id = some row
    ∧ isEnvelope (decodeJsonValue row.record) = false) ?_ ⟨row, h, hclear⟩ (hscan h hclear)
  rintro t r u ⟨row, h, hclear⟩ hr hu
  rw [hscan h hclear] at hr
  cases hr
  rw [queue_replay rfl] at hu
  split at hu
  next =>
    cases hu
    have hrow := Table.row_withAttempt h (row.attempt + 1)
    exact ⟨⟨_, hrow, hclear⟩, hscan hrow hclear⟩
  next => cases hu

variable (py) in
/-- **An encrypted record** is scanned with the attempts it was written with. -/
theorem exists_scan_eq_of_encrypted {policy : DLQPayloadPolicy}
    (hpolicy : cfg.payloadPolicy = some policy) (hmode : policy.mode = .encrypted)
    (id : ℕ) (r : DLQRecord δ) :
    ∃ r', r'.attempt = r.attempt ∧ r'.storageId = some (.row id)
      ∧ ∀ (t : Table δ) (row : Columns δ Json), t.row id = some row → row.record = .obj
        (policy.envelope (policy.cipher.encrypt (Json.dumps (.obj (recordToPayload py r))))) →
        (cfg.queue py id).scan t = some r' := by
  obtain ⟨r', hr', hattempt, hsid⟩ := @exists_record_of_normal δ py (some (.row id)) r
  refine ⟨r', hattempt, hsid, fun t row ht hrecord => ?_⟩
  show cfg.scan py id t = _
  rw [scan_eq ht, hpolicy, rowToRecord, hrecord]
  show (storedToRecord py _ (some policy) (some (.row id)) (.obj _) _).toOption = _
  rw [storedToRecord_of_encrypted hmode, hr']
  rfl

/-- **When Postgres counts replays**: when the record is stored in clear, and its value
does not look like an envelope; and when no replay can succeed. -/
theorem countsReplays_write_iff {r : DLQRecord δ} {t t' : Table δ}
    (h : cfg.write py sha256 r t = .ok (id, true, t')) :
    (cfg.queue py id).CountsReplays t'
      ↔ encrypts cfg.payloadPolicy = false
          ∧ isEnvelope (storedValue py cfg.payloadPolicy r) = false
        ∨ encrypts cfg.payloadPolicy = true ∧ r.attempt = 2147483647 := by
  obtain ⟨columns, hcolumns, h⟩ := exists_of_bind_eq_ok h
  obtain ⟨hrow, hinteger⟩ := Table.insert_of_new h
  cases hencrypts : encrypts cfg.payloadPolicy with
  | false =>
    have hdecoded := decodeJsonValue_of_recordToRow hencrypts hcolumns
    cases henvelope : isEnvelope (storedValue py cfg.payloadPolicy r) with
    | false =>
      refine ⟨fun _ => .inl ⟨rfl, rfl⟩, fun _ => countsReplays_of_clear hrow ?_⟩
      rw [hdecoded, henvelope]
    | true =>
      refine ⟨?_, fun h => h.elim (fun h => nomatch h.2) (fun h => nomatch h.1)⟩
      rintro ⟨r', hr', _⟩
      have hread : rowToRecord py cfg.payloadPolicy (some (.row id)) columns.stored = .ok r' := by
        refine eq_ok_of_toOption ?_
        rw [← scan_eq hrow]
        exact hr'
      exact absurd hread (storedToRecord_ne_ok hencrypts (by rw [hdecoded, henvelope]) r')
  | true =>
    cases hpolicy : cfg.payloadPolicy with
    | none =>
      rw [hpolicy] at hencrypts
      cases hencrypts
    | some policy =>
      rw [hpolicy] at hencrypts hcolumns
      have hmode : policy.mode = .encrypted := of_decide_eq_true hencrypts
      obtain ⟨hrecord, hcolumn⟩ := record_of_recordToRow hmode hcolumns
      obtain ⟨r', hattempt, hsid, hscan⟩ :=
        exists_scan_eq_of_encrypted py hpolicy hmode id r
      have hr' := hscan t' _ hrow hrecord
      have hreplay : (cfg.queue py id).replay r' t' = _ := queue_replay hsid
      rw [hcolumn] at hinteger
      constructor
      · intro hcount
        refine .inr ⟨rfl, ?_⟩
        by_contra hne
        have hnext : IsInteger r'.replayed.attempt := by
          show _ ≤ r'.attempt + 1 ∧ r'.attempt + 1 ≤ _
          rw [hattempt]
          unfold IsInteger at hinteger
          omega
        rw [if_pos hnext] at hreplay
        exact ReplayQueue.not_countsReplays_of_scan_eq hr' hreplay
          (hscan _ _ (Table.row_withAttempt hrow _) hrecord) hcount
      · rintro (⟨hfalse, _⟩ | ⟨_, hmax⟩)
        · cases hfalse
        · refine ReplayQueue.countsReplays_of_not_replayed hr' ?_
          rw [hreplay, if_neg]
          show ¬ (_ ≤ r'.attempt + 1 ∧ r'.attempt + 1 ≤ _)
          rw [hattempt, hmax]
          omega

end PostgresDLQ

/-! ## Both stores -/

/-- **When replays are counted**, by Redis and by Postgres, from when a record has been
written. -/
theorem countsReplays_iff [DecidableEq δ] (py : Python δ) (sha256 : String → String)
    (redis : RedisDLQ) (postgres : PostgresDLQ) (r : DLQRecord δ) :
    (∀ s uuid mapping, RedisPayloads.recordToHash py redis.payloadPolicy r = .ok mapping →
      recordKey py redis.keyPrefix r uuid
        ∈ (redis.write py r uuid s).list (RedisKeyspace.indexKey redis.keyPrefix) →
      ((redis.queue py (recordKey py redis.keyPrefix r uuid)).CountsReplays
          (redis.write py r uuid s)
        ↔ encrypts redis.payloadPolicy = false
          ∧ isEnvelope (RedisPayloads.storedValue py redis.payloadPolicy r) = false))
    ∧ ∀ t id t', postgres.write py sha256 r t = .ok (id, true, t') →
      ((postgres.queue py id).CountsReplays t'
        ↔ encrypts postgres.payloadPolicy = false
            ∧ isEnvelope (PostgresPayloads.storedValue py postgres.payloadPolicy r) = false
          ∨ encrypts postgres.payloadPolicy = true ∧ r.attempt = 2147483647) :=
  ⟨fun _ _ _ hmapping hlisted => RedisDLQ.countsReplays_write_iff hmapping hlisted,
    fun _ _ _ h => PostgresDLQ.countsReplays_write_iff h⟩

/-- A record with a value that is a number. -/
def DLQRecord.sample : DLQRecord String where
  pipelineId := "orders"
  runId := "run-1"
  stage := "transform"
  errorType := "ValueError"
  errorMessage := "bad"
  record := .num 1
  originalRecord := .null
  processedRecord := .null
  source := none
  checkpoint := .null
  details := .null
  middleware := none
  sink := none
  createdAt := "2024-01-01T00:00:00+00:00"
  attempt := 0
  maxAttempts := some 3
  storageId := none

/-- The first row of a table is new. -/
theorem exists_write_empty {sha256 : String → String} {postgres : PostgresDLQ}
    (hmode : ∀ p ∈ postgres.payloadPolicy, p.mode ≠ .redacted) :
    ∃ t', postgres.write Python.ofTexts sha256 .sample .empty = .ok (1, true, t') := by
  obtain ⟨row, hrow, hattempt, hmax⟩ :=
    @PostgresPayloads.exists_recordToRow_eq String Python.ofTexts sha256 _ hmode .sample
  refine ⟨Table.empty.append row, ?_⟩
  have hnone : (Table.empty : Table String).idOf row.dedupeKey = none := by
    unfold Table.idOf
    split <;> rfl
  unfold PostgresDLQ.write Table.insert
  rw [hrow]
  show (if IsInteger row.attempt ∧ ∀ n ∈ row.maxAttempts, IsInteger n then _ else _) = _
  rw [hattempt, hmax, if_pos (by decide), hnone]
  rfl

/-- In clear, a number is written, and each replay of its record is counted. -/
theorem countsReplays_iff_sample :
    ((RedisDLQ.mk "agora:dlq" none).queue Python.ofTexts
        (recordKey Python.ofTexts "agora:dlq" .sample "1")).CountsReplays
      ((RedisDLQ.mk "agora:dlq" none).write Python.ofTexts .sample "1" .empty)
    ∧ ∃ t', (PostgresDLQ.mk none).write Python.ofTexts id .sample .empty = .ok (1, true, t')
      ∧ ((PostgresDLQ.mk none).queue Python.ofTexts 1).CountsReplays t' := by
  have hiff := countsReplays_iff Python.ofTexts id (.mk "agora:dlq" none) (.mk none) .sample
  have hmode : ∀ p ∈ (none : Option DLQPayloadPolicy), p.mode ≠ .redacted := by
    intro p hp
    cases hp
  refine ⟨?_, ?_⟩
  · obtain ⟨mapping, hmapping⟩ :=
      @RedisPayloads.exists_recordToHash_eq String Python.ofTexts none hmode .sample
    refine (hiff.1 .empty "1" mapping hmapping (RedisDLQ.listed_of_new hmapping rfl)).2 ⟨rfl, ?_⟩
    simp [RedisPayloads.storedValue, RedisPayloads.applied, RedisPayloads.recordToPayload,
      payloadOf, Payload.value, Json.find, DLQRecord.sample, Json.normal, isEnvelope, Json.get]
  · obtain ⟨t', ht'⟩ := @exists_write_empty id (.mk none) hmode
    refine ⟨t', ht', (hiff.2 .empty 1 t' ht').2 (.inl ⟨rfl, ?_⟩)⟩
    simp [PostgresPayloads.storedValue, PostgresPayloads.applied,
      PostgresPayloads.recordToPayload, PostgresPayloads.decodeJsonValue, payloadOf,
      Payload.value, Json.find, DLQRecord.sample, Json.normal, isEnvelope, Json.get]

/-- **Encrypted, no replay of it is counted**, by neither store. -/
theorem not_countsReplays_encrypted :
    ¬ ((RedisDLQ.mk "agora:dlq" (some .reverse)).queue Python.ofTexts
        (recordKey Python.ofTexts "agora:dlq" .sample "1")).CountsReplays
      ((RedisDLQ.mk "agora:dlq" (some .reverse)).write Python.ofTexts .sample "1" .empty)
    ∧ ∃ t', (PostgresDLQ.mk (some .reverse)).write Python.ofTexts id .sample .empty
        = .ok (1, true, t')
      ∧ ¬ ((PostgresDLQ.mk (some .reverse)).queue Python.ofTexts 1).CountsReplays t' := by
  have hmode : ∀ p ∈ some DLQPayloadPolicy.reverse, p.mode ≠ .redacted := by
    rintro p ⟨⟩
    exact nofun
  refine ⟨?_, ?_⟩
  · obtain ⟨mapping, hmapping⟩ :=
      @RedisPayloads.exists_recordToHash_eq String Python.ofTexts (some .reverse) hmode .sample
    have hlisted := @RedisDLQ.listed_of_new String Python.ofTexts
      (.mk "agora:dlq" (some .reverse)) .empty .sample "1" mapping hmapping rfl
    exact fun h => nomatch ((RedisDLQ.countsReplays_write_iff hmapping hlisted).1 h).1
  · obtain ⟨t', ht'⟩ := @exists_write_empty id (.mk (some .reverse)) hmode
    refine ⟨t', ht', fun h => ?_⟩
    obtain ⟨hfalse, _⟩ | ⟨_, hmax⟩ := (PostgresDLQ.countsReplays_write_iff ht').1 h
    · cases hfalse
    · exact absurd hmax (by decide)

end Dlq

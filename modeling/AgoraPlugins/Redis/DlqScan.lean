import AgoraPlugins.Redis.DlqIndex
import AgoraPlugins.Redis.DlqKeyspace

/-!
# Scanning the Redis DLQ

A scan asks which index there is for its filters, takes a snapshot of it, and reads the hashes of
the keys in it, a hundred to a pipeline. None of this is one transaction: between any two commands
of a scan other clients write, replay and acknowledge. So the snapshot is of one moment and each
hash of another, and a record may be gone by the time its hash is read, or have come after the
snapshot.

What a scan is good for is said by two bounds (`scanned_of_guarded`). It yields no record twice,
and none but what the DLQ held, under the key of the record, at some moment of the scan; and with
no limit reached it yields every key whose hash has passed the filters throughout. For a DLQ that
nobody changes meanwhile the two meet. The filters are on the records that are read, the choice of
the index on the keys their hashes name, so the two must agree: a policy must not redact the
pipeline or the stage of a record.
-/

open Machine

namespace Dlq

open RedisKeyspace RedisPayloads

/-! ## The source -/

/-- **`RedisDLQKeyspace`**: the prefix of a DLQ, and that of its storage. -/
structure RedisDLQKeyspace where
  keyPrefix : String
  storageKeyPrefix : String

namespace RedisDLQKeyspace

/-- `preferred_index_key`. -/
def preferredIndexKey (keyPrefix : String) : Option String → Option String → String
  | some pipelineId, some stage => pipelineStageIndexKey keyPrefix pipelineId stage
  | some pipelineId, none => pipelineIndexKey keyPrefix pipelineId
  | none, some stage => stageIndexKey keyPrefix stage
  | none, none => indexKey keyPrefix

/-- The index keys that `resolve_index_key` asks for, in this order. With none of them there, it is
the primary index of the storage. -/
def candidates (keyspace : RedisDLQKeyspace) (pipelineId stage : Option String) : List String :=
  let preferred := preferredIndexKey keyspace.storageKeyPrefix pipelineId stage
  let legacyPreferred := preferredIndexKey keyspace.keyPrefix pipelineId stage
  let primaryIndex := indexKey keyspace.storageKeyPrefix
  let legacyPrimary := indexKey keyspace.keyPrefix
  (preferred :: if legacyPreferred ≠ preferred then [legacyPreferred] else [])
    ++ if preferred = primaryIndex then []
      else primaryIndex :: if legacyPrimary ≠ primaryIndex then [legacyPrimary] else []

end RedisDLQKeyspace

/-- **The settings of a source**, which reads what the sinks of the DLQ write. -/
structure RedisDLQSource extends RedisDLQ where
  pipelineId : Option String := none
  stage : Option String := none
  limit : Option ℤ := none

/-- Without a cluster the prefix of the storage is that of the DLQ. -/
def RedisDLQSource.keyspace (src : RedisDLQSource) : RedisDLQKeyspace :=
  ⟨src.keyPrefix, src.keyPrefix⟩

/-- Where a scan is, between two of its commands. -/
inductive ScanPc where
  /-- it asks which of these index keys there are -/
  | resolving (candidates : List String)
  /-- it takes the snapshot of this index -/
  | snapshotting (index : String)
  /-- it reads the hashes of these keys, with what has been read of the chunk, and the rest of the
  snapshot -/
  | fetching (keys : List String) (payloads : List (String × Hash)) (rest : List String)
  | finished
  | failed (e : Exc)

/-- What has been read and not been looked at. -/
def ScanPc.payloads : ScanPc → List (String × Hash)
  | fetching _ payloads _ => payloads
  | resolving _ | snapshotting _ | finished | failed _ => []

/-- The keys that are still to be looked at. -/
def ScanPc.pending : ScanPc → List String
  | fetching keys payloads rest => payloads.map Prod.fst ++ keys ++ rest
  | resolving _ | snapshotting _ | finished | failed _ => []

/-- No hash has been read yet. -/
def ScanPc.begins : ScanPc → Bool
  | resolving _ | snapshotting _ => true
  | fetching _ _ _ | finished | failed _ => false

/-- A scan, and the database it shares with the other clients. -/
structure ScanState (δ : Type) where
  store : Store
  pc : ScanPc
  yielded : List (DLQRecord δ) := []

/-- How a chunk is left: the next one is wanted, the limit is reached, a hash cannot be read. -/
inductive ChunkEnd where
  | more
  | enough
  | raised (e : Exc)

namespace RedisDLQSource

variable {δ : Type} (py : Python δ) (src : RedisDLQSource)

/-- `chunk_size`. -/
def chunkSize : ℕ := 100

/-- The next chunk of a snapshot. -/
def nextChunk (snapshot : List String) : ScanPc :=
  if snapshot = [] then .finished
  else .fetching (snapshot.take chunkSize) [] (snapshot.drop chunkSize)

/-- A record that the filters let through. -/
def passes (r : DLQRecord δ) : Bool :=
  src.pipelineId.all (fun pipelineId => r.pipelineId = pipelineId)
    && src.stage.all (fun stage => r.stage = stage)

/-- **The records of a chunk are yielded**, up to the limit. A hash that is not there any more is
passed over. -/
def deliver : List (String × Hash) → List (DLQRecord δ) → List (DLQRecord δ) × ChunkEnd
  | [], yielded => (yielded, .more)
  | (_, payload) :: rest, yielded =>
    if payload.entries = [] then deliver rest yielded
    else match hashToRecord py src.payloadPolicy payload with
      | .error e => (yielded, .raised e)
      | .ok r =>
        if src.passes r then
          if src.limit.any (fun limit => limit ≤ ((yielded ++ [r]).length : ℤ)) then
            (yielded ++ [r], .enough)
          else deliver rest (yielded ++ [r])
        else deliver rest yielded

/-- A chunk has been read. -/
def endChunk (s : ScanState δ) (payloads : List (String × Hash)) (rest : List String) :
    ScanState δ :=
  match deliver py src payloads s.yielded with
  | (yielded, .more) => { s with pc := nextChunk rest, yielded }
  | (yielded, .enough) => { s with pc := .finished, yielded }
  | (yielded, .raised e) => { s with pc := .failed e, yielded }

/-- **The next command of a scan**: an `EXISTS`, the `LRANGE`, or an `HGETALL`. -/
def proceed (s : ScanState δ) : Option (ScanState δ) :=
  match s.pc with
  | .resolving (index :: rest) =>
    if s.store.list index ≠ [] then some { s with pc := .snapshotting index }
    else if rest ≠ [] then some { s with pc := .resolving rest }
    else some { s with pc := .snapshotting (indexKey src.keyspace.storageKeyPrefix) }
  | .snapshotting index => some { s with pc := nextChunk (s.store.list index) }
  | .fetching (key :: keys) payloads rest =>
    let payloads := payloads ++ [(key, (s.store.hashes.lookup key).getD ∅)]
    if keys ≠ [] then some { s with pc := .fetching keys payloads rest }
    else some (src.endChunk py s payloads rest)
  | .resolving [] | .fetching [] _ _ | .finished | .failed _ => none

/-- A scan begins. -/
def begin (s : Store) : ScanState δ where
  store := s
  pc := .resolving (src.keyspace.candidates src.pipelineId src.stage)

/-- What comes to the database next: a command of another client's, or one of the scan's. -/
inductive ScanEvent (δ : Type) where
  | command (c : RedisDLQ.Command δ)
  | proceed

/-- **One command**, of whoever. -/
def scanStep (s : ScanState δ) : ScanEvent δ → Option (ScanState δ)
  | .command c => (src.step py s.store c).map (fun store => { s with store })
  | .proceed => src.proceed py s

end RedisDLQSource

/-! ## What a hash says of its record -/

namespace RedisPayloads

variable {δ : Type} {py : Python δ} {policy : Option DLQPayloadPolicy} {r : DLQRecord δ}
  {mapping : List (String × String)}

variable (py policy) in
/-- **The policy does not redact** the pipeline or the stage of a record. -/
def KeepsLabels (r : DLQRecord δ) : Prop :=
  Json.find "pipeline_id" (applied py policy r) = some (.str r.pipelineId)
    ∧ Json.find "stage" (applied py policy r) = some (.str r.stage)

theorem keepsLabels_of_ne (hmode : ∀ p ∈ policy, p.mode ≠ .redacted) (r : DLQRecord δ) :
    KeepsLabels py policy r := by
  unfold KeepsLabels
  rw [applied_eq hmode]
  exact ⟨rfl, rfl⟩

/-- They are written as they are. -/
theorem labels_of_payloadToHash {payload : Payload} {pipelineId stage : String}
    (h : payloadToHash py payload = .ok mapping)
    (hpipeline : Json.find "pipeline_id" payload = some (.str pipelineId))
    (hstage : Json.find "stage" payload = some (.str stage)) :
    Dict.last "pipeline_id" mapping = some pipelineId ∧ Dict.last "stage" mapping = some stage := by
  unfold payloadToHash Payload.item at h
  rw [hpipeline, hstage] at h
  obtain ⟨p, hp, h⟩ := exists_of_bind_eq_ok h
  obtain ⟨runId, _, h⟩ := exists_of_bind_eq_ok h
  obtain ⟨st, hst, h⟩ := exists_of_bind_eq_ok h
  obtain ⟨errorType, _, h⟩ := exists_of_bind_eq_ok h
  obtain ⟨errorMessage, _, h⟩ := exists_of_bind_eq_ok h
  obtain ⟨created, _, h⟩ := exists_of_bind_eq_ok h
  obtain ⟨t, _, h⟩ := exists_of_bind_eq_ok h
  obtain ⟨n, _, h⟩ := exists_of_bind_eq_ok h
  obtain ⟨m, _, h⟩ := exists_of_bind_eq_ok h
  cases hp
  cases hst
  cases h
  exact ⟨rfl, rfl⟩

/-- What a hash in clear is read as has the fields of the hash. -/
theorem labels_of_fieldsToRecord {hash : Hash} (h : fieldsToRecord py hash = .ok r) :
    hash.lookup "pipeline_id" = some r.pipelineId ∧ hash.lookup "stage" = some r.stage
      ∧ r.storageId = (hash.lookup "storage_key").map .key := by
  have hfield : ∀ {name text : String}, field hash name = .ok text →
      hash.lookup name = some text := by
    intro name text hname
    unfold field at hname
    cases hl : hash.lookup name with
    | none => rw [hl] at hname; cases hname
    | some text' => rw [hl] at hname; cases hname; rfl
  rw [fieldsToRecord_eq] at h
  obtain ⟨pipelineId, hpipelineId, h⟩ := exists_of_bind_eq_ok h
  obtain ⟨runId, _, h⟩ := exists_of_bind_eq_ok h
  obtain ⟨stage, hstage, h⟩ := exists_of_bind_eq_ok h
  obtain ⟨errorType, _, h⟩ := exists_of_bind_eq_ok h
  obtain ⟨errorMessage, _, h⟩ := exists_of_bind_eq_ok h
  obtain ⟨created, _, h⟩ := exists_of_bind_eq_ok h
  obtain ⟨t, _, h⟩ := exists_of_bind_eq_ok h
  obtain ⟨a, _, h⟩ := exists_of_bind_eq_ok h
  obtain ⟨m, _, h⟩ := exists_of_bind_eq_ok h
  cases h
  exact ⟨hfield hpipelineId, hfield hstage, rfl⟩

/-- **A record that was written is read back** with its pipeline and its stage, and with the key
it was written under. -/
theorem labels_of_hashToRecord (hkeeps : KeepsLabels py policy r)
    (h : recordToHash py policy r = .ok mapping) {hash : Hash}
    (hhash : ∀ name text, Dict.last name mapping = some text → hash.lookup name = some text)
    {r' : DLQRecord δ} (hr' : hashToRecord py policy hash = .ok r') :
    r'.pipelineId = r.pipelineId ∧ r'.stage = r.stage
      ∧ r'.storageId = (hash.lookup "storage_key").map .key := by
  cases hencrypts : encrypts policy with
  | false =>
    have henvelope : isEnvelope (decoded hash "record") = false := by
      by_contra hne
      exact hashToRecord_ne_ok hencrypts (Bool.of_not_eq_false hne) r' hr'
    rw [hashToRecord_of_not_isEnvelope henvelope] at hr'
    obtain ⟨hpipeline, hstage, hsid⟩ := labels_of_fieldsToRecord hr'
    have hlabels : Dict.last "pipeline_id" mapping = some r.pipelineId
        ∧ Dict.last "stage" mapping = some r.stage := by
      unfold recordToHash at h
      obtain ⟨written, hwritten, h⟩ := exists_of_bind_eq_ok h
      have hlabels := labels_of_payloadToHash hwritten hkeeps.1 hkeeps.2
      cases policy with
      | none => cases h; exact hlabels
      | some policy =>
        dsimp only at h
        rw [if_neg (of_decide_eq_false hencrypts)] at h
        cases h
        exact hlabels
    rw [hhash _ _ hlabels.1, Option.some.injEq] at hpipeline
    rw [hhash _ _ hlabels.2, Option.some.injEq] at hstage
    exact ⟨hpipeline.symm, hstage.symm, hsid⟩
  | true =>
    cases policy with
    | none => cases hencrypts
    | some policy =>
      have hmode : policy.mode = .encrypted := of_decide_eq_true hencrypts
      rw [hashToRecord_of_encrypted hmode (hhash _ _ (record_of_recordToHash hmode h))] at hr'
      have hread := @payloadToRecord_payloadOf δ py textOr id (fun t => .str (py.isoformat t)) r
        r.createdAt (py.fromisoformat_isoformat r.createdAt)
        ((hash.lookup "storage_key").map .key)
      cases hread.symm.trans hr'
      exact ⟨rfl, rfl, rfl⟩

/-- A hash with other attempts is read with the same pipeline and stage, and key. -/
theorem labels_of_insert_attempt {hash : Hash} (h : hashToRecord py policy hash = .ok r) {n : ℤ}
    {r' : DLQRecord δ}
    (hr' : hashToRecord py policy (hash.insert "attempt" (Json.dumps (.num n))) = .ok r') :
    r'.pipelineId = r.pipelineId ∧ r'.stage = r.stage ∧ r'.storageId = r.storageId := by
  have hdecoded : decoded (hash.insert "attempt" (Json.dumps (.num n))) "record"
      = decoded hash "record" := by
    unfold decoded
    rw [AList.lookup_insert_ne (by decide)]
  cases henvelope : isEnvelope (decoded hash "record") with
  | false =>
    rw [hashToRecord_of_not_isEnvelope henvelope] at h
    rw [hashToRecord_of_not_isEnvelope (by rw [hdecoded, henvelope]),
      fieldsToRecord_insert_attempt h n] at hr'
    cases hr'
    exact ⟨rfl, rfl, rfl⟩
  | true =>
    obtain ⟨members, hmembers⟩ := exists_of_isEnvelope henvelope
    rw [hmembers] at henvelope
    unfold hashToRecord at h hr'
    rw [hmembers, storedToRecord_of_isEnvelope henvelope] at h
    rw [hdecoded, hmembers, storedToRecord_of_isEnvelope henvelope,
      AList.lookup_insert_ne (by decide)] at hr'
    cases h.symm.trans hr'
    exact ⟨rfl, rfl, rfl⟩

end RedisPayloads

/-! ## What the scan can rely on -/

variable {δ : Type} {py : Python δ} {cfg : RedisDLQ} {s t : Store}

variable (py cfg) in
/-- **Every hash names the lists** of the pipeline and the stage of its record, and its own key. -/
def RedisDLQ.Labelled (s : Store) : Prop :=
  ∀ key hash (r : DLQRecord δ), s.hashes.lookup key = some hash →
    hashToRecord py cfg.payloadPolicy hash = .ok r →
    cfg.Names s key r.pipelineId r.stage ∧ r.storageId = some (.key key)

variable (py cfg) in
/-- What a command must be for a scan: it keeps the DLQ consistent, and a record that is written
keeps its labels. -/
def RedisDLQ.Keeps (s : Store) (c : RedisDLQ.Command δ) : Prop :=
  cfg.Guard py s c ∧ match c with
    | .write r _ => KeepsLabels py cfg.payloadPolicy r
    | .replay _ | .acknowledge _ => True

variable (py cfg) in
/-- **A DLQ that can be scanned.** -/
structure RedisDLQ.Scannable (s : Store) : Prop where
  consistent : cfg.Consistent py s
  indexed : cfg.Indexed s
  labelled : cfg.Labelled py s

namespace RedisDLQ

/-- A step that changes one hash keeps the labels of the others. -/
theorem labelled_of_key (key : String) (h : cfg.Labelled py s)
    (hhashes : ∀ k, k ≠ key → t.hashes.lookup k = s.hashes.lookup k)
    (hkey : ∀ hash (r : DLQRecord δ), t.hashes.lookup key = some hash →
      hashToRecord py cfg.payloadPolicy hash = .ok r →
      cfg.Names t key r.pipelineId r.stage ∧ r.storageId = some (.key key)) :
    cfg.Labelled py t := by
  intro k hash r hhash hread
  by_cases hk : k = key
  · subst hk
    exact hkey hash r hhash hread
  · rw [hhashes k hk] at hhash
    obtain ⟨hnames, hsid⟩ := h k hash r hhash hread
    exact ⟨(Store.metadata_congr (hhashes k hk)).trans hnames, hsid⟩

/-- **A write labels its hash.** -/
theorem labelled_upsert {r : DLQRecord δ} {mapping : List (String × String)}
    (h : cfg.Labelled py s) (hkeeps : KeepsLabels py cfg.payloadPolicy r)
    (hmapping : recordToHash py cfg.payloadPolicy r = .ok mapping) (key : String) :
    cfg.Labelled py (s.upsertScript key (indexKey cfg.keyPrefix)
      (orderedSecondaryIndexKeys cfg.keyPrefix r.pipelineId r.stage)
      (mapping ++ ("storage_key", key) :: indexMetadata cfg.keyPrefix r.pipelineId r.stage)) := by
  have hlookup : ∀ k, (s.upsertScript key (indexKey cfg.keyPrefix)
      (orderedSecondaryIndexKeys cfg.keyPrefix r.pipelineId r.stage)
      (mapping ++ ("storage_key", key)
        :: indexMetadata cfg.keyPrefix r.pipelineId r.stage)).hashes.lookup k
      = if k = key then some (((s.hashes.lookup key).getD ∅).update (mapping
        ++ ("storage_key", key) :: indexMetadata cfg.keyPrefix r.pipelineId r.stage))
      else s.hashes.lookup k := by
    intro k
    rw [hashes_upsertScript, Store.lookup_hset]
  refine labelled_of_key key h (fun k hk => (hlookup k).trans (if_neg hk)) ?_
  intro hash r' hhash hread
  have hnames := names_of_written ((hlookup key).trans (if_pos rfl))
  rw [hlookup, if_pos rfl, Option.some.injEq] at hhash
  have hfields : ∀ name text, Dict.last name mapping = some text →
      hash.lookup name = some text := by
    intro name text hlast
    rw [← hhash]
    exact lookup_of_written hmapping name text hlast
  have hkey : hash.lookup "storage_key" = some key := by
    rw [← hhash, Dict.lookup_update, Dict.last_append]
    rfl
  obtain ⟨hpipeline, hstage, hsid⟩ := labels_of_hashToRecord hkeeps hmapping hfields hread
  rw [hpipeline, hstage]
  refine ⟨hnames, ?_⟩
  rw [hsid, hkey]
  rfl

/-- **A replay leaves the labels**, where the hash is there. -/
theorem labelled_hset_attempt (hc : cfg.Consistent py s) (h : cfg.Labelled py s) {key : String}
    (hsome : (s.hashes.lookup key).isSome = true) (n : ℤ) :
    cfg.Labelled py (s.hset key [("attempt", Json.dumps (.num n))]) := by
  obtain ⟨old, hold⟩ := Option.isSome_iff_exists.1 hsome
  obtain ⟨⟨r, hr⟩, _⟩ := hc.of_some hold
  have hlookup : ∀ k, (s.hset key [("attempt", Json.dumps (.num n))]).hashes.lookup k
      = if k = key then some (old.insert "attempt" (Json.dumps (.num n)))
        else s.hashes.lookup k := by
    intro k
    rw [Store.lookup_hset, hold]
    rfl
  refine labelled_of_key key h (fun k hk => (hlookup k).trans (if_neg hk)) ?_
  intro hash r' hhash hread
  rw [hlookup, if_pos rfl, Option.some.injEq] at hhash
  subst hhash
  obtain ⟨hnames, hsid⟩ := h key old r hold hr
  obtain ⟨hpipeline, hstage, hsid'⟩ := labels_of_insert_attempt hr hread
  rw [hpipeline, hstage, hsid']
  refine ⟨?_, hsid⟩
  have hmetadata : (s.hset key [("attempt", Json.dumps (.num n))]).metadata key
      = s.metadata key := by
    have hfield : ∀ name ∈ metadataFields,
        (s.hset key [("attempt", Json.dumps (.num n))]).hget key name = s.hget key name := by
      intro name hname
      have hne : name ≠ "attempt" := by
        rintro rfl
        exact absurd hname (by decide)
      unfold Store.hget
      rw [hlookup, if_pos rfl, hold, Option.bind_some, Option.bind_some,
        AList.lookup_insert_ne hne]
    exact List.map_congr_left hfield
  exact hmetadata.trans hnames

theorem labelled_acknowledgeScript (h : cfg.Labelled py s) (key primary : String)
    (secondary : List String) : cfg.Labelled py (s.acknowledgeScript key primary secondary) := by
  have hlookup : ∀ k, (s.acknowledgeScript key primary secondary).hashes.lookup k
      = if k = key then none else s.hashes.lookup k := by
    intro k
    rw [hashes_acknowledgeScript]
    exact Store.lookup_del s key k
  refine labelled_of_key key h (fun k hk => (hlookup k).trans (if_neg hk)) ?_
  intro hash r hhash
  rw [hlookup, if_pos rfl] at hhash
  cases hhash

/-- **A DLQ stays one that can be scanned**, whatever command comes. -/
theorem Scannable.step {c : RedisDLQ.Command δ} (hs : cfg.Scannable py s)
    (hk : cfg.Keeps py s c) (h : cfg.step py s c = some t) : cfg.Scannable py t := by
  obtain ⟨hindexed, hiff⟩ := step_iff py cfg s c t hs.indexed hs.consistent h
  refine ⟨hiff.2 hk.1, hindexed, ?_⟩
  cases c with
  | write r uuid =>
    cases h
    unfold write recordHash
    cases hmapping : recordToHash py cfg.payloadPolicy r with
    | error e => exact hs.labelled
    | ok mapping => exact labelled_upsert hs.labelled hk.2 hmapping _
  | replay r =>
    cases h
    unfold replay
    cases hkey : existingRecordKey r with
    | error e => exact hs.labelled
    | ok key => exact labelled_hset_attempt hs.consistent hs.labelled (hk.1 key hkey) _
  | acknowledge r =>
    cases h
    unfold acknowledge
    cases existingRecordKey r with
    | error e => exact hs.labelled
    | ok key => exact labelled_acknowledgeScript hs.labelled _ _ _

theorem scannable_empty : cfg.Scannable py .empty where
  consistent := consistent_empty
  indexed := fun _ => .inr ⟨rfl, fun _ => rfl⟩
  labelled := nofun

/-- **No index lists a key twice.** -/
theorem Scannable.nodup_list (hs : cfg.Scannable py s) (index : String) :
    (s.list index).Nodup := by
  refine List.nodup_iff_count_le_one.2 (fun key => ?_)
  show s.count index key ≤ 1
  cases hhash : s.hashes.lookup key with
  | none =>
    rw [hs.consistent.of_none hhash index]
    exact Nat.zero_le 1
  | some hash =>
    obtain ⟨_, p, st, hnames, _⟩ := hs.consistent.of_some hhash
    rw [count_eq hs.consistent hs.indexed hhash hnames]
    split <;> decide

end RedisDLQ

namespace RedisDLQSource

variable {src : RedisDLQSource}

variable (py src) in
/-- **The record under a key**, as it is read. -/
def Holds (s : Store) (key : String) (r : DLQRecord δ) : Prop :=
  ∃ hash, s.hashes.lookup key = some hash ∧ hashToRecord py src.payloadPolicy hash = .ok r

/-- The key of a record that passes the filters is in the index that is asked for first. -/
theorem mem_preferred (hs : src.Scannable py s) {key : String} {r : DLQRecord δ}
    (h : src.Holds py s key r) (hr : src.passes r = true) :
    key ∈ s.list (RedisDLQKeyspace.preferredIndexKey src.keyPrefix src.pipelineId src.stage) := by
  obtain ⟨hash, hhash, hread⟩ := h
  obtain ⟨hnames, _⟩ := hs.labelled key hash r hhash hread
  have hcount := RedisDLQ.count_eq hs.consistent hs.indexed hhash hnames
  unfold passes at hr
  rw [Bool.and_eq_true, Option.all_eq_true, Option.all_eq_true] at hr
  have hindex : RedisDLQKeyspace.preferredIndexKey src.keyPrefix src.pipelineId src.stage
      ∈ indexKey src.keyPrefix
        :: orderedSecondaryIndexKeys src.keyPrefix r.pipelineId r.stage := by
    have hpipeline : ∀ p, src.pipelineId = some p → r.pipelineId = p :=
      fun p hp => of_decide_eq_true (hr.1 p hp)
    have hstage : ∀ st, src.stage = some st → r.stage = st :=
      fun st hst => of_decide_eq_true (hr.2 st hst)
    unfold RedisDLQKeyspace.preferredIndexKey orderedSecondaryIndexKeys
    cases hp : src.pipelineId with
    | none =>
      cases hst : src.stage with
      | none => exact List.mem_cons_self
      | some st =>
        rw [hstage st hst]
        simp
    | some p =>
      cases hst : src.stage with
      | none =>
        rw [hpipeline p hp]
        simp
      | some st =>
        rw [hpipeline p hp, hstage st hst]
        simp
  refine List.count_pos_iff.1 ?_
  show 0 < s.count _ key
  rw [hcount, if_pos hindex]
  exact Nat.one_pos

/-! ## A chunk -/

variable (py src) in
/-- The record that is found in what was read for a key, if it passes the filters. -/
def found (p : String × Hash) : Option (DLQRecord δ) :=
  if p.2.entries = [] then none
  else match hashToRecord py src.payloadPolicy p.2 with
    | .error _ => none
    | .ok r => if src.passes r then some r else none

variable (py src) in
/-- **What was read for a key** is nothing, or a record with that key. -/
def Readable (p : String × Hash) : Prop :=
  p.2.entries ≠ [] →
    ∃ r, hashToRecord py src.payloadPolicy p.2 = .ok r ∧ r.storageId = some (.key p.1)

/-- The key of a record that has one. -/
def storageKey (r : DLQRecord δ) : String :=
  match r.storageId with
  | some (.key key) => key
  | some (.row _) | none => ""

theorem found_eq_some {p : String × Hash} {r : DLQRecord δ} (hp : src.Readable py p)
    (h : src.found py p = some r) : hashToRecord py src.payloadPolicy p.2 = .ok r
      ∧ src.passes r = true ∧ r.storageId = some (.key p.1) := by
  unfold found at h
  split at h
  next => cases h
  next hne =>
    obtain ⟨r', hr', hsid⟩ := hp hne
    rw [hr'] at h
    dsimp only at h
    rw [Option.ite_none_right_eq_some] at h
    obtain ⟨hpasses, hrr⟩ := h
    cases hrr
    exact ⟨hr', hpasses, hsid⟩

/-- The records found among the keys of a chunk are in the order of the keys. -/
theorem storageKey_found {payloads : List (String × Hash)}
    (h : ∀ p ∈ payloads, src.Readable py p) :
    ((payloads.filterMap (src.found py)).map storageKey).Sublist (payloads.map Prod.fst) := by
  induction payloads with
  | nil => exact .slnil
  | cons p payloads ih =>
    have hrest := ih (fun q hq => h q (List.mem_cons_of_mem _ hq))
    rw [List.filterMap_cons]
    cases hfound : src.found py p with
    | none => exact hrest.cons _
    | some r =>
      obtain ⟨_, _, hsid⟩ := found_eq_some (h p List.mem_cons_self) hfound
      have hkey : storageKey r = p.1 := by
        unfold storageKey
        rw [hsid]
      show (storageKey r :: _).Sublist _
      rw [hkey]
      exact hrest.cons_cons _

variable (src) in
/-- The limit is reached. -/
def AtLimit (yielded : List (DLQRecord δ)) : Prop :=
  ∃ limit ∈ src.limit, limit ≤ (yielded.length : ℤ)

/-- **What a chunk yields**: the records found in it, all of them or up to the limit. -/
theorem deliver_cases {payloads : List (String × Hash)} (h : ∀ p ∈ payloads, src.Readable py p)
    (yielded : List (DLQRecord δ)) :
    src.deliver py payloads yielded = (yielded ++ payloads.filterMap (src.found py), .more)
      ∨ ∃ taken, taken.Sublist (payloads.filterMap (src.found py))
        ∧ src.AtLimit (yielded ++ taken)
        ∧ src.deliver py payloads yielded = (yielded ++ taken, .enough) := by
  induction payloads generalizing yielded with
  | nil =>
    refine .inl ?_
    rw [List.filterMap_nil, List.append_nil]
    rfl
  | cons p payloads ih =>
    have hrest := ih (fun q hq => h q (List.mem_cons_of_mem _ hq))
    obtain ⟨key, payload⟩ := p
    unfold deliver
    rw [List.filterMap_cons]
    by_cases hempty : payload.entries = []
    · have hnone : src.found py (key, payload) = none := if_pos hempty
      rw [if_pos hempty, hnone]
      exact hrest yielded
    · obtain ⟨r, hr, _⟩ := h (key, payload) List.mem_cons_self hempty
      have hfound : src.found py (key, payload) = if src.passes r then some r else none := by
        unfold found
        rw [if_neg hempty, hr]
      rw [if_neg hempty, hr, hfound]
      dsimp only
      by_cases hpasses : src.passes r = true
      · rw [if_pos hpasses, if_pos hpasses]
        dsimp only
        by_cases hlimit : src.limit.any (fun limit => limit ≤ ((yielded ++ [r]).length : ℤ)) = true
        · rw [if_pos hlimit]
          obtain ⟨hsome, hle⟩ := (Option.any_eq_true_iff_get _ _).1 hlimit
          exact .inr ⟨[r], (List.nil_sublist _).cons_cons r,
            ⟨_, Option.get_mem hsome, of_decide_eq_true hle⟩, rfl⟩
        · rw [if_neg hlimit]
          rcases hrest (yielded ++ [r]) with heq | ⟨taken, hsub, hat, heq⟩
          · refine .inl ?_
            rw [heq, List.append_assoc]
            rfl
          · refine .inr ⟨r :: taken, hsub.cons_cons r, ?_, ?_⟩
            · rw [List.append_assoc] at hat
              exact hat
            · rw [heq, List.append_assoc]
              rfl
      · rw [if_neg hpasses, if_neg hpasses]
        exact hrest yielded

/-- **How a chunk ends**: the next one is wanted, or the limit is reached. -/
theorem endChunk_cases {u : ScanState δ} {payloads : List (String × Hash)}
    (h : ∀ p ∈ payloads, src.Readable py p) (rest : List String) :
    src.endChunk py u payloads rest = { u with
        pc := nextChunk rest
        yielded := u.yielded ++ payloads.filterMap (src.found py) }
      ∨ ∃ taken, taken.Sublist (payloads.filterMap (src.found py))
        ∧ src.AtLimit (u.yielded ++ taken)
        ∧ src.endChunk py u payloads rest = { u with
          pc := .finished
          yielded := u.yielded ++ taken } := by
  unfold endChunk
  rcases deliver_cases h u.yielded with heq | ⟨taken, hsub, hlimit, heq⟩
  · rw [heq]
    exact .inl rfl
  · rw [heq]
    exact .inr ⟨taken, hsub, hlimit, rfl⟩

variable (py src) in
/-- **What a command of a scan does**. -/
inductive Proceeds (u : ScanState δ) : ScanState δ → Prop
  | finds {index rest} (hpc : u.pc = .resolving (index :: rest)) (hlist : u.store.list index ≠ []) :
    Proceeds u { u with pc := .snapshotting index }
  | misses {index rest pc} (hpc : u.pc = .resolving (index :: rest))
    (hlist : u.store.list index = []) (hpayloads : pc.payloads = []) (hpending : pc.pending = [])
    (hne : ∀ e, pc ≠ .failed e) : Proceeds u { u with pc }
  | snapshots {index} (hpc : u.pc = .snapshotting index) :
    Proceeds u { u with pc := nextChunk (u.store.list index) }
  | fetches {key keys payloads rest} (hpc : u.pc = .fetching (key :: keys) payloads rest) :
    Proceeds u { u with
      pc := .fetching keys (payloads ++ [(key, (u.store.hashes.lookup key).getD ∅)]) rest }
  | ends {key payloads rest} (hpc : u.pc = .fetching [key] payloads rest) :
    Proceeds u
      (src.endChunk py u (payloads ++ [(key, (u.store.hashes.lookup key).getD ∅)]) rest)

theorem proceeds {u v : ScanState δ} (h : src.proceed py u = some v) : src.Proceeds py u v := by
  unfold proceed at h
  split at h
  next index rest hpc =>
    split at h
    next hlist => cases h; exact .finds hpc hlist
    next hlist =>
      split at h <;> cases h <;> exact .misses hpc (not_not.1 hlist) rfl rfl nofun
  next index hpc => cases h; exact .snapshots hpc
  next key keys payloads rest hpc =>
    dsimp only at h
    split at h
    next => cases h; exact .fetches hpc
    next hkeys =>
      cases h
      rw [not_not.1 hkeys] at hpc
      exact .ends hpc
  all_goals cases h

/-! ## The invariants of a scan -/

variable (py src) in
/-- **How a scan stands**: what it has read can be read, and no key is before it twice. -/
structure Scanning (u : ScanState δ) : Prop where
  scannable : src.Scannable py u.store
  readable : ∀ p ∈ u.pc.payloads, src.Readable py p
  succeeded : ∀ e, u.pc ≠ .failed e
  yielded : ∀ r ∈ u.yielded, src.passes r = true ∧ ∃ key, r.storageId = some (.key key)
  nodup : (u.yielded.map storageKey ++ u.pc.pending).Nodup
  fresh : u.pc.begins = true → u.yielded = []

theorem pending_nextChunk (snapshot : List String) :
    (nextChunk snapshot).pending = snapshot ∧ (nextChunk snapshot).payloads = []
      ∧ (nextChunk snapshot).begins = false := by
  unfold nextChunk
  split
  next h => exact ⟨h.symm, rfl, rfl⟩
  next => exact ⟨List.take_append_drop _ _, rfl, rfl⟩

theorem nextChunk_ne_failed (snapshot : List String) (e : Exc) :
    nextChunk snapshot ≠ .failed e := by
  unfold nextChunk
  split <;> exact nofun

/-- What an `HGETALL` gives can be read. -/
theorem readable_lookup {s : Store} (hs : src.Scannable py s) (key : String) :
    src.Readable py (key, (s.hashes.lookup key).getD ∅) := by
  intro hne
  cases hhash : s.hashes.lookup key with
  | none =>
    rw [hhash] at hne
    exact absurd rfl hne
  | some hash =>
    obtain ⟨⟨r, hr⟩, _⟩ := hs.consistent.of_some hhash
    exact ⟨r, hr, (hs.labelled key hash r hhash hr).2⟩

theorem Scanning.readable_append {u : ScanState δ} (hu : src.Scanning py u) {key : String}
    {keys rest : List String} {payloads : List (String × Hash)}
    (hpc : u.pc = .fetching (key :: keys) payloads rest) :
    ∀ p ∈ payloads ++ [(key, (u.store.hashes.lookup key).getD ∅)], src.Readable py p := by
  have hpayloads := hu.readable
  rw [hpc] at hpayloads
  intro p hp
  rcases List.mem_append.1 hp with hp | hp
  · exact hpayloads p hp
  · rw [List.mem_singleton.1 hp]
    exact readable_lookup hu.scannable key

/-- The key whose hash has been read is where it was. -/
theorem Scanning.nodup_append {u : ScanState δ} (hu : src.Scanning py u) {key : String}
    {keys rest : List String} {payloads : List (String × Hash)}
    (hpc : u.pc = .fetching (key :: keys) payloads rest) :
    (u.yielded.map storageKey ++ ((payloads
      ++ [(key, (u.store.hashes.lookup key).getD ∅)]).map Prod.fst ++ keys ++ rest)).Nodup := by
  have hpending : (payloads ++ [(key, (u.store.hashes.lookup key).getD ∅)]).map Prod.fst
      ++ keys ++ rest = u.pc.pending := by
    rw [hpc]
    simp [ScanPc.pending]
  rw [hpending]
  exact hu.nodup

/-- **A chunk that ends** leaves what it yields and what is after it. -/
theorem Scanning.endChunk {u : ScanState δ} {payloads : List (String × Hash)} {rest : List String}
    (hu : src.Scannable py u.store) (hread : ∀ p ∈ payloads, src.Readable py p)
    (hyielded : ∀ r ∈ u.yielded, src.passes r = true ∧ ∃ key, r.storageId = some (.key key))
    (hnodup : (u.yielded.map storageKey ++ (payloads.map Prod.fst ++ rest)).Nodup) :
    src.Scanning py (src.endChunk py u payloads rest) := by
  have htaken : ∀ taken, taken.Sublist (payloads.filterMap (src.found py)) →
      (∀ r ∈ u.yielded ++ taken, src.passes r = true ∧ ∃ key, r.storageId = some (.key key))
        ∧ ((u.yielded ++ taken).map storageKey ++ rest).Nodup := by
    intro taken hsub
    constructor
    · intro r hr
      rcases List.mem_append.1 hr with hr | hr
      · exact hyielded r hr
      · obtain ⟨p, hp, hfound⟩ := List.mem_filterMap.1 (hsub.subset hr)
        obtain ⟨_, hpasses, hsid⟩ := found_eq_some (hread p hp) hfound
        exact ⟨hpasses, p.1, hsid⟩
    · have hkeys := (hsub.map storageKey).trans (storageKey_found hread)
      rw [List.map_append, List.append_assoc]
      exact hnodup.sublist ((List.Sublist.refl _).append (hkeys.append (List.Sublist.refl _)))
  rcases endChunk_cases hread rest with heq | ⟨taken, hsub, _, heq⟩ <;> rw [heq]
  · obtain ⟨hpasses, hnodup⟩ := htaken _ (List.Sublist.refl _)
    obtain ⟨hpending, hpayloads, hbegins⟩ := pending_nextChunk rest
    refine ⟨hu, ?_, nextChunk_ne_failed rest, hpasses, ?_, fun hb => ?_⟩
    · show ∀ p ∈ (nextChunk rest).payloads, _
      rw [hpayloads]
      exact nofun
    · show (_ ++ (nextChunk rest).pending).Nodup
      rw [hpending]
      exact hnodup
    · exact absurd (hbegins.symm.trans hb) Bool.false_ne_true
  · obtain ⟨hpasses, hnodup⟩ := htaken taken hsub
    refine ⟨hu, nofun, nofun, hpasses, ?_, nofun⟩
    exact hnodup.sublist ((List.Sublist.refl _).append (List.nil_sublist rest))

/-- While the index is looked for nothing has been read. -/
theorem Scanning.resolved {u : ScanState δ} (hu : src.Scanning py u) (hbegins : u.pc.begins = true)
    {pc : ScanPc} (hpayloads : pc.payloads = []) (hpending : pc.pending = [])
    (hne : ∀ e, pc ≠ .failed e) : src.Scanning py { u with pc } := by
  refine ⟨hu.scannable, ?_, hne, hu.yielded, ?_, fun _ => hu.fresh hbegins⟩
  · show ∀ p ∈ pc.payloads, _
    rw [hpayloads]
    exact nofun
  · show (_ ++ pc.pending).Nodup
    rw [hpending]
    exact hu.nodup.sublist ((List.Sublist.refl _).append (List.nil_sublist _))

/-- **A command of the scan** keeps it so. -/
theorem Scanning.proceed {u v : ScanState δ} (hu : src.Scanning py u)
    (h : src.proceed py u = some v) : src.Scanning py v := by
  cases proceeds h with
  | finds hpc => exact hu.resolved (by rw [hpc]; rfl) rfl rfl nofun
  | misses hpc _ hpayloads hpending hne =>
    exact hu.resolved (by rw [hpc]; rfl) hpayloads hpending hne
  | @snapshots index hpc =>
    obtain ⟨hpending, hpayloads, _⟩ := pending_nextChunk (u.store.list index)
    have hnew : u.yielded = [] := hu.fresh (by rw [hpc]; rfl)
    refine ⟨hu.scannable, ?_, nextChunk_ne_failed _, hu.yielded, ?_, fun _ => hnew⟩
    · show ∀ p ∈ (nextChunk _).payloads, _
      rw [hpayloads]
      exact nofun
    · show (_ ++ (nextChunk _).pending).Nodup
      rw [hpending, hnew]
      exact hu.scannable.nodup_list index
  | fetches hpc =>
    exact ⟨hu.scannable, hu.readable_append hpc, nofun, hu.yielded, hu.nodup_append hpc, nofun⟩
  | ends hpc =>
    have hnodup := hu.nodup_append hpc
    rw [List.append_nil] at hnodup
    exact .endChunk hu.scannable (hu.readable_append hpc) hu.yielded hnodup

/-- What the other clients do leaves the scan where it is. -/
theorem Scanning.step {u v : ScanState δ} {e : ScanEvent δ} (hu : src.Scanning py u)
    (hk : ∀ c, e = .command c → src.Keeps py u.store c) (h : src.scanStep py u e = some v) :
    src.Scanning py v := by
  cases e with
  | command c =>
    obtain ⟨store, hstore, rfl⟩ := Option.map_eq_some_iff.1 h
    exact ⟨hu.scannable.step (hk c rfl) hstore, hu.readable, hu.succeeded, hu.yielded, hu.nodup,
      hu.fresh⟩
  | proceed => exact hu.proceed h

variable (py src) in
/-- A key whose hash passes the filters. -/
def Matches (s : Store) (key : String) : Prop :=
  ∃ r : DLQRecord δ, src.Holds py s key r ∧ src.passes r = true

variable (py src) in
/-- **A key that the scan will come to**, or has come to. -/
def Reaches (key : String) (u : ScanState δ) : Prop :=
  match u.pc with
  | .resolving candidates => candidates.head? =
      some (RedisDLQKeyspace.preferredIndexKey src.keyPrefix src.pipelineId src.stage)
  | .snapshotting index =>
    index = RedisDLQKeyspace.preferredIndexKey src.keyPrefix src.pipelineId src.stage
  | .fetching keys payloads rest => key ∈ u.yielded.map storageKey ∨ key ∈ keys ++ rest
      ∨ ∃ p ∈ payloads, ∃ r, src.found py p = some r ∧ storageKey r = key
  | .finished => key ∈ u.yielded.map storageKey ∨ src.AtLimit u.yielded
  | .failed _ => True

/-- The rest of a snapshot is still reached. -/
theorem reaches_nextChunk {key : String} {store : Store} {yielded : List (DLQRecord δ)}
    {snapshot : List String} (h : key ∈ yielded.map storageKey ∨ key ∈ snapshot) :
    src.Reaches py key ⟨store, nextChunk snapshot, yielded⟩ := by
  unfold nextChunk
  split
  next hempty =>
    rw [hempty] at h
    exact .inl (h.resolve_right (List.not_mem_nil))
  next =>
    show _ ∨ _ ∨ _
    rw [List.take_append_drop]
    exact h.imp id .inl

/-- The hash of a key that passes the filters is found. -/
theorem found_of_matches {s : Store} (hs : src.Scannable py s) {key : String}
    (h : src.Matches py s key) :
    ∃ r, src.found py (key, (s.hashes.lookup key).getD ∅) = some r ∧ storageKey r = key := by
  obtain ⟨r, ⟨hash, hhash, hread⟩, hpasses⟩ := h
  have hne : hash.entries ≠ [] := by
    intro hempty
    refine hashToRecord_ne_ok_of_none ?_ ?_ r hread <;>
      exact AList.lookup_eq_none.2 (fun hmem => by
        rw [AList.mem_keys, AList.keys, hempty] at hmem
        cases hmem)
  refine ⟨r, ?_, ?_⟩
  · unfold found
    rw [hhash, Option.getD_some, if_neg hne, hread]
    exact if_pos hpasses
  · unfold storageKey
    rw [(hs.labelled key hash r hhash hread).2]

/-- **A command of the scan** still reaches a key that matches. -/
theorem reaches_proceed {key : String} {u v : ScanState δ} (hu : src.Scanning py u)
    (hr : src.Reaches py key u) (hm : src.Matches py u.store key)
    (h : src.proceed py u = some v) : src.Reaches py key v := by
  have hpreferred : key ∈ u.store.list
      (RedisDLQKeyspace.preferredIndexKey src.keyPrefix src.pipelineId src.stage) := by
    obtain ⟨r, hholds, hpasses⟩ := hm
    exact mem_preferred hu.scannable hholds hpasses
  have hread : ∀ {k : String} {keys rest : List String} {payloads : List (String × Hash)},
      u.pc = .fetching (k :: keys) payloads rest → key ∈ u.yielded.map storageKey
        ∨ key ∈ keys ++ rest ∨ ∃ p ∈ payloads ++ [(k, (u.store.hashes.lookup k).getD ∅)],
          ∃ r, src.found py p = some r ∧ storageKey r = key := by
    intro k keys rest payloads hpc
    unfold Reaches at hr
    rw [hpc] at hr
    rcases hr with hr | hr | ⟨p, hp, hfound⟩
    · exact .inl hr
    · rcases List.mem_cons.1 hr with rfl | hr
      · exact .inr (.inr ⟨_, List.mem_append_right _ List.mem_cons_self,
          found_of_matches hu.scannable hm⟩)
      · exact .inr (.inl hr)
    · exact .inr (.inr ⟨p, List.mem_append_left _ hp, hfound⟩)
  cases proceeds h with
  | finds hpc =>
    unfold Reaches at hr
    rw [hpc] at hr
    cases hr
    rfl
  | misses hpc hlist =>
    -- the preferred index is asked for first, and the key is in it
    unfold Reaches at hr
    rw [hpc] at hr
    cases hr
    rw [hlist] at hpreferred
    cases hpreferred
  | snapshots hpc =>
    unfold Reaches at hr
    rw [hpc] at hr
    cases hr
    exact reaches_nextChunk (.inr hpreferred)
  | fetches hpc => exact hread hpc
  | ends hpc =>
    have hnext := hread hpc
    rcases endChunk_cases (hu.readable_append hpc) _ with heq | ⟨taken, _, hlimit, heq⟩ <;> rw [heq]
    · refine reaches_nextChunk ?_
      rw [List.map_append, List.mem_append]
      rcases hnext with hnext | hnext | ⟨p, hp, r, hfound, rfl⟩
      · exact .inl (.inl hnext)
      · exact .inr hnext
      · exact .inl (.inr (List.mem_map_of_mem (List.mem_filterMap.2 ⟨p, hp, hfound⟩)))
    · exact .inr hlimit

variable (py src) in
/-- **A record that the scan has not come across.** -/
def Unseen (r : DLQRecord δ) (u : ScanState δ) : Prop :=
  r ∉ u.yielded ∧ ∀ p ∈ u.pc.payloads, src.found py p ≠ some r

/-- **A command of the scan** comes across nothing that the DLQ does not hold. -/
theorem unseen_proceed {r : DLQRecord δ} {key : String} (hsid : r.storageId = some (.key key))
    {u v : ScanState δ} (hu : src.Scanning py u) (hr : src.Unseen py r u)
    (hn : ¬ src.Holds py u.store key r) (h : src.proceed py u = some v) :
    src.Unseen py r v := by
  obtain ⟨hyielded, hpayloads⟩ := hr
  have hnew : ∀ {k : String} {keys rest : List String} {payloads : List (String × Hash)},
      u.pc = .fetching (k :: keys) payloads rest →
      ∀ p ∈ payloads ++ [(k, (u.store.hashes.lookup k).getD ∅)], src.found py p ≠ some r := by
    intro k keys rest payloads hpc p hp hfound
    rw [hpc] at hpayloads
    obtain ⟨hok, _, hkey⟩ := found_eq_some (hu.readable_append hpc p hp) hfound
    rcases List.mem_append.1 hp with hp | hp
    · exact hpayloads p hp hfound
    · rw [List.mem_singleton.1 hp] at hok hkey
      rw [hsid] at hkey
      cases hkey
      refine hn ?_
      cases hhash : u.store.hashes.lookup k with
      | none =>
        rw [hhash] at hok
        exact absurd hok (hashToRecord_ne_ok_of_none rfl rfl r)
      | some hash =>
        rw [hhash] at hok
        exact ⟨hash, hhash, hok⟩
  cases proceeds h with
  | finds => exact ⟨hyielded, nofun⟩
  | misses _ _ hnone =>
    refine ⟨hyielded, ?_⟩
    show ∀ p ∈ ScanPc.payloads _, _
    rw [hnone]
    exact nofun
  | snapshots =>
    refine ⟨hyielded, ?_⟩
    show ∀ p ∈ (nextChunk _).payloads, _
    rw [(pending_nextChunk _).2.1]
    exact nofun
  | fetches hpc => exact ⟨hyielded, hnew hpc⟩
  | @ends k payloads rest hpc =>
    have hnot : r ∉ (payloads ++ [(k, (u.store.hashes.lookup k).getD ∅)]).filterMap
        (src.found py) := by
      intro hmem
      obtain ⟨p, hp, hfound⟩ := List.mem_filterMap.1 hmem
      exact hnew hpc p hp hfound
    rcases endChunk_cases (hu.readable_append hpc) rest with heq | ⟨taken, hsub, _, heq⟩ <;>
      rw [heq]
    · refine ⟨fun hmem => (List.mem_append.1 hmem).elim hyielded hnot, ?_⟩
      show ∀ p ∈ (nextChunk rest).payloads, _
      rw [(pending_nextChunk rest).2.1]
      exact nofun
    · exact ⟨fun hmem => (List.mem_append.1 hmem).elim hyielded (fun h => hnot (hsub.subset h)),
        nofun⟩

/-! ## Runs -/

variable (py src) in
/-- What a command must be, and the scan may always go on. -/
def KeepsScan (u : ScanState δ) (e : ScanEvent δ) : Prop :=
  ∀ c, e = .command c → src.Keeps py u.store c

variable (py src) in
/-- **What a scan has yielded** after a run from `s`. -/
structure Scanned (s : Store) (es : List (ScanEvent δ)) (t : ScanState δ) : Prop where
  /-- it has not failed -/
  succeeded : ∀ e, t.pc ≠ .failed e
  /-- no record twice -/
  once : (t.yielded.map DLQRecord.storageId).Nodup
  /-- only records that pass the filters and that the DLQ held in some state of the run -/
  held : ∀ r ∈ t.yielded, src.passes r = true ∧ ∃ key, r.storageId = some (.key key)
    ∧ ¬ AllStates (src.scanStep py) (fun u => ¬ src.Holds py u.store key r) (src.begin s) es
  /-- and in the end every key that passed the filters in all of them -/
  complete : t.pc = .finished → ¬ src.AtLimit t.yielded → ∀ key,
    AllStates (src.scanStep py) (fun u => src.Matches py u.store key) (src.begin s) es →
    ∃ r ∈ t.yielded, r.storageId = some (.key key)

theorem head_candidates (src : RedisDLQSource) :
    (src.keyspace.candidates src.pipelineId src.stage).head?
      = some (RedisDLQKeyspace.preferredIndexKey src.keyPrefix src.pipelineId src.stage) := rfl

theorem scanning_begin {s : Store} (hs : src.Scannable py s) :
    src.Scanning py (src.begin s : ScanState δ) :=
  ⟨hs, nofun, nofun, nofun, .nil, fun _ => rfl⟩

/-- **A scan among the commands of other clients**: of a DLQ that its sinks have written, replayed
and acknowledged, while they go on doing so. -/
theorem scanned_of_guarded (src : RedisDLQSource) (cs : List (RedisDLQ.Command δ)) {s : Store}
    (hcs : AllSteps (src.step py) (fun s c _ => src.Keeps py s c) .empty cs)
    (hs : run (src.step py) .empty cs = some s) (es : List (ScanEvent δ)) {t : ScanState δ}
    (hes : AllSteps (src.scanStep py) (fun u e _ => src.KeepsScan py u e) (src.begin s) es)
    (ht : run (src.scanStep py) (src.begin s) es = some t) : src.Scanned py s es t := by
  have hstates : AllStates (src.step py) (src.Scannable py) .empty cs :=
    allStates_of_step (fun _ _ _ hs hk h => hs.step hk h) RedisDLQ.scannable_empty hcs
  have hscannable : src.Scannable py s := hstates.last hs
  have hscanning : AllStates (src.scanStep py) (src.Scanning py) (src.begin s) es :=
    allStates_of_step (fun _ _ _ hu hk h => hu.step hk h) (scanning_begin hscannable) hes
  have hlast := hscanning.last ht
  refine ⟨hlast.succeeded, ?_, fun r hr => ?_, fun hfinished hlimit key hkey => ?_⟩
  · -- the keys are those of the records, so no record comes twice
    have hkeys : t.yielded.map storageKey
        = (t.yielded.map DLQRecord.storageId).map (fun sid => match sid with
          | some (.key key) => key
          | some (.row _) | none => "") := by
      rw [List.map_map]
      rfl
    have hnodup := (List.nodup_append.1 hlast.nodup).1
    rw [hkeys] at hnodup
    exact hnodup.of_map _
  · obtain ⟨hpasses, key, hsid⟩ := hlast.yielded r hr
    refine ⟨hpasses, key, hsid, fun hnever => ?_⟩
    -- a record that never passes is not seen, by induction over the scan
    have hunseen : AllStates (src.scanStep py) (fun u => src.Scanning py u ∧ src.Unseen py r u)
        (src.begin s) es := by
      refine allStates_of_step ?_ ⟨scanning_begin hscannable, nofun, nofun⟩
        (hes.and hnever.steps)
      rintro u e v ⟨hu, hr⟩ ⟨hk, hn, _⟩ h
      refine ⟨hu.step hk h, ?_⟩
      cases e with
      | command c =>
        obtain ⟨store, _, rfl⟩ := Option.map_eq_some_iff.1 h
        exact hr
      | proceed => exact unseen_proceed hsid hu hr hn h
    exact (hunseen.last ht).2.1 hr
  · -- a key that always passes is reached, by induction as well
    have hreaches : AllStates (src.scanStep py) (fun u => src.Scanning py u ∧ src.Reaches py key u)
        (src.begin s) es := by
      refine allStates_of_step ?_ ⟨scanning_begin hscannable, head_candidates src⟩
        (hes.and hkey.steps)
      rintro u e v ⟨hu, hr⟩ ⟨hk, hm, _⟩ h
      refine ⟨hu.step hk h, ?_⟩
      cases e with
      | command c =>
        obtain ⟨store, _, rfl⟩ := Option.map_eq_some_iff.1 h
        exact hr
      | proceed => exact reaches_proceed hu hr hm h
    have hreached := (hreaches.last ht).2
    unfold Reaches at hreached
    rw [hfinished] at hreached
    have hmem : key ∈ t.yielded.map storageKey := hreached.resolve_right hlimit
    obtain ⟨r, hr, rfl⟩ := List.mem_map.1 hmem
    obtain ⟨_, key, hsid⟩ := hlast.yielded r hr
    refine ⟨r, hr, ?_⟩
    unfold storageKey
    rw [hsid]

/-- A record that failed to load. -/
def failing (pipelineId : String) : DLQRecord String where
  pipelineId := pipelineId
  runId := "run"
  stage := "load"
  errorType := "ValueError"
  errorMessage := "bad"
  record := .null
  originalRecord := .null
  processedRecord := .null
  source := none
  checkpoint := .null
  details := .null
  middleware := none
  sink := none
  createdAt := "2024-01-01T00:00:00+00:00"
  attempt := 0
  maxAttempts := none
  storageId := none

/-- It is read by its stage. -/
def loadSource : RedisDLQSource where
  keyPrefix := "agora:dlq"
  payloadPolicy := none
  stage := some "load"

/-- Two are written, and the second is acknowledged between the two `HGETALL` of a scan. -/
def acknowledgedAmidScan : List (ScanEvent String) :=
  [.proceed, .proceed, .proceed, .command (.acknowledge { failing "users" with
    storageId := some (.key "agora:dlq:users:run:load:2024-01-01T00:00:00+00:00:2") }), .proceed]

/-- It is not yielded then. -/
theorem scanned_acknowledgedAmidScan :
    ∃ s t, run (loadSource.step .ofTexts) .empty
        [.write (failing "orders") "1", .write (failing "users") "2"] = some s
      ∧ run (loadSource.scanStep .ofTexts) (loadSource.begin s) acknowledgedAmidScan = some t
      ∧ t.yielded.map DLQRecord.pipelineId = ["orders"]
      ∧ loadSource.Scanned .ofTexts s acknowledgedAmidScan t := by
  have hyields : ((run (loadSource.step .ofTexts) .empty
      [.write (failing "orders") "1", .write (failing "users") "2"]).bind (fun s =>
        run (loadSource.scanStep .ofTexts) (loadSource.begin s) acknowledgedAmidScan)).any
      (fun t => t.yielded.map DLQRecord.pipelineId = ["orders"]) = true := by
    decide +kernel
  obtain ⟨t, ht, hyielded⟩ := (Option.any_eq_true _ _).1 hyields
  obtain ⟨s, hs, ht⟩ := Option.bind_eq_some_iff.1 ht
  have hwrite : ∀ (s : Store) pipelineId uuid,
      loadSource.Keeps .ofTexts s (.write (failing pipelineId) uuid) :=
    fun _ _ _ => ⟨fun _ => .inr rfl,
      keepsLabels_of_ne (fun p hp => absurd hp (Option.not_mem_none p)) _⟩
  have hproceed : ∀ u : ScanState String, loadSource.KeepsScan .ofTexts u .proceed :=
    fun _ _ h => by cases h
  refine ⟨s, t, hs, ht, of_decide_eq_true hyielded, scanned_of_guarded loadSource
    [.write (failing "orders") "1", .write (failing "users") "2"] ?_ hs acknowledgedAmidScan ?_ ht⟩
  · exact fun _ _ => ⟨hwrite _ _ _, fun _ _ => ⟨hwrite _ _ _, trivial⟩⟩
  · refine fun _ _ => ⟨hproceed _, fun _ _ => ⟨hproceed _, fun _ _ => ⟨hproceed _, fun _ _ =>
      ⟨fun c hc => ?_, fun _ _ => ⟨hproceed _, trivial⟩⟩⟩⟩⟩
    cases hc
    exact ⟨trivial, trivial⟩

end RedisDLQSource

end Dlq

import AgoraPlugins.Machine
import AgoraPlugins.Redis.DlqPayloads

/-!
# The Redis DLQ

Each record is a hash, and its key is in four lists: one of all records, one of its
pipeline, one of its stage, and one of both. The hash says in three more fields which
the last three are, so that they are found again when the record is written with
another pipeline or stage.

Writing and acknowledging are a script each. A replay is a single `HSET`, which does
not ask whether the hash is there. Everything else an operation does is reading. So a
run is a list of these commands, in whatever order the operations of the clients come
to them; it makes no difference when an operation was called.

Without a cluster the key prefix is the prefix of the storage, and every sink that is
open has its scripts. Record keys and index keys are taken as two kinds of keys.
-/

namespace Dlq

/-- The hashes and the lists of a database. A list that is not there is empty. -/
structure Store where
  hashes : Dict String Hash
  lists : Dict String (List String)

namespace Store

variable (s : Store)

def empty : Store := ⟨∅, ∅⟩

/-- `LRANGE index 0 -1`. -/
def list (index : String) : List String := (s.lists.lookup index).getD []

/-- `HGET`. -/
def hget (key field : String) : Option String :=
  (s.hashes.lookup key).bind (fun hash => hash.lookup field)

/-- `HSET`. -/
def hset (key : String) (fields : List (String × String)) : Store :=
  { s with hashes := s.hashes.insert key (((s.hashes.lookup key).getD ∅).update fields) }

/-- `DEL` of a hash. -/
def del (key : String) : Store := { s with hashes := s.hashes.erase key }

/-- `RPUSH`. -/
def rpush (index key : String) : Store :=
  { s with lists := s.lists.insert index (s.list index ++ [key]) }

/-- `LREM index 0`. -/
def lrem (index key : String) : Store :=
  { s with lists := s.lists.insert index ((s.list index).filter (fun k => k ≠ key)) }

end Store

namespace RedisKeyspace

/-- A byte of a percent-encoded text. -/
def quoteByte (b : UInt8) : List Char :=
  let c := Char.ofNat b.toNat
  if b.toNat < 128 ∧ (c.isAlphanum ∨ c ∈ ['_', '.', '-', '~']) then [c]
  else ['%', (Nat.digitChar (b.toNat / 16)).toUpper, (Nat.digitChar (b.toNat % 16)).toUpper]

/-- `index_part`, which is `quote(value, safe="")`. -/
def indexPart (value : String) : String :=
  String.ofList (value.toUTF8.toList.flatMap quoteByte)

variable (keyPrefix : String)

def indexKey : String := keyPrefix ++ ":__index__"

def pipelineIndexKey (pipelineId : String) : String :=
  keyPrefix ++ (":__index__:pipeline:" ++ indexPart pipelineId)

def stageIndexKey (stage : String) : String :=
  keyPrefix ++ (":__index__:stage:" ++ indexPart stage)

def pipelineStageIndexKey (pipelineId stage : String) : String :=
  keyPrefix ++ (":__index__:pipeline_stage:" ++ (indexPart pipelineId ++ ":" ++ indexPart stage))

/-- `ordered_secondary_index_keys`. -/
def orderedSecondaryIndexKeys (pipelineId stage : String) : List String :=
  [pipelineIndexKey keyPrefix pipelineId, stageIndexKey keyPrefix stage,
    pipelineStageIndexKey keyPrefix pipelineId stage]

/-- `_index_metadata`: the fields of a hash that say in which lists its key is. -/
def indexMetadata (pipelineId stage : String) : List (String × String) :=
  [("__pipeline_index_key", pipelineIndexKey keyPrefix pipelineId),
    ("__stage_index_key", stageIndexKey keyPrefix stage),
    ("__pipeline_stage_index_key", pipelineStageIndexKey keyPrefix pipelineId stage)]

/-- The three fields. -/
def metadataFields : List String :=
  ["__pipeline_index_key", "__stage_index_key", "__pipeline_stage_index_key"]

end RedisKeyspace

open RedisKeyspace RedisPayloads

variable {δ : Type} (py : Python δ)

/-- `record_key`, with the `uuid` it takes if there is no storage id. -/
def recordKey (keyPrefix : String) (r : DLQRecord δ) (uuid : String) : String :=
  let generated := keyPrefix ++ ":" ++ r.pipelineId ++ ":" ++ r.runId ++ ":" ++ r.stage ++ ":"
    ++ py.isoformat r.createdAt ++ ":" ++ uuid
  match r.storageId with
  | some (.key k) => if k = "" then generated else k
  | some (.row _) | none => generated

/-- `existing_record_key`. -/
def existingRecordKey (r : DLQRecord δ) : Except Exc String :=
  match r.storageId with
  | some (.key k) =>
    if k = "" then throw (.exception "ValueError"
      "RedisDLQSink replay/acknowledge requires a persisted storage key.")
    else pure k
  | some (.row _) | none => throw (.exception "ValueError"
      "RedisDLQSink replay/acknowledge requires a persisted storage key.")

/-! ## The scripts -/

namespace Store

/-- The index keys the hash of a record names, where it is there and names them. -/
def metadata (s : Store) (key : String) : List (Option String) :=
  metadataFields.map (s.hget key)

/-- `_DLQ_UPSERT_SCRIPT`. -/
def upsertScript (key primary : String) (secondary : List String)
    (fields : List (String × String)) (s : Store) : Store :=
  let written := s.hset key fields
  if (s.hashes.lookup key).isNone then
    (primary :: secondary).foldl (fun s index => s.rpush index key) written
  else
    let old := ((s.metadata key).filterMap id).filter (fun index => index ≠ "")
    secondary.foldl (fun s index => s.rpush index key)
      ((old ++ secondary).foldl (fun s index => s.lrem index key) written)

/-- `_DLQ_ACKNOWLEDGE_SCRIPT`. -/
def acknowledgeScript (key primary : String) (secondary : List String) (s : Store) : Store :=
  let indexes := (((s.metadata key).zip secondary).map (fun p => p.1.getD p.2)).filter
    (fun index => index ≠ "")
  indexes.foldl (fun s index => s.lrem index key) ((s.del key).lrem primary key)

end Store

/-! ## The operations -/

/-- **The settings of the sinks of one DLQ.** -/
structure RedisDLQ where
  keyPrefix : String
  payloadPolicy : Option DLQPayloadPolicy

namespace RedisDLQ

variable (cfg : RedisDLQ)

/-- `_record_hash`. -/
def recordHash (r : DLQRecord δ) (key : String) : Except Exc (List (String × String)) := do
  let hash ← recordToHash py cfg.payloadPolicy r
  pure (hash ++ ("storage_key", key) :: indexMetadata cfg.keyPrefix r.pipelineId r.stage)

/-- **`write`**, and each record of `write_batch`. It raises before its script where the
record has no hash. -/
def write (r : DLQRecord δ) (uuid : String) (s : Store) : Store :=
  let key := recordKey py cfg.keyPrefix r uuid
  match cfg.recordHash py r key with
  | .error _ => s
  | .ok fields => s.upsertScript key (indexKey cfg.keyPrefix)
      (orderedSecondaryIndexKeys cfg.keyPrefix r.pipelineId r.stage) fields

/-- **`replay`**, from where the core package has returned the record. -/
def replay (r : DLQRecord δ) (s : Store) : Store :=
  match existingRecordKey r with
  | .error _ => s
  | .ok key => s.hset key [("attempt", Json.dumps (.num r.replayed.attempt))]

/-- **`acknowledge`**. What it reads before its script makes no difference here. -/
def acknowledge (r : DLQRecord δ) (s : Store) : Store :=
  match existingRecordKey r with
  | .error _ => s
  | .ok key => s.acknowledgeScript key (indexKey cfg.keyPrefix)
      (orderedSecondaryIndexKeys cfg.keyPrefix r.pipelineId r.stage)

/-- A command that changes the database, of whichever client. -/
inductive Command (δ : Type) where
  | write (r : DLQRecord δ) (uuid : String)
  | replay (r : DLQRecord δ)
  | acknowledge (r : DLQRecord δ)

/-- **One command.** -/
def step (s : Store) : Command δ → Option Store
  | .write r uuid => some (cfg.write py r uuid s)
  | .replay r => some (replay r s)
  | .acknowledge r => some (cfg.acknowledge r s)

end RedisDLQ

end Dlq

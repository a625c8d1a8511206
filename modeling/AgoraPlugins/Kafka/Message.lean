import AgoraPlugins.Reply
import Mathlib.Data.Int.Notation

/-!
# Messages a Kafka sink publishes

A record is not what the producer sends. The sink serialises it and routes it:
a topic, a key, a partition, headers and a timestamp are each chosen by a
callback of the sink, by its default, or – when a `message_fn` is configured –
by the `KafkaSinkMessage` that function returns for the record. An override
left `UNSET` falls back to the callback, which is not the same as an override
set to `None`; so an override is an `Option` around the value it may set.
-/

/-- A byte string. -/
abbrev Bytes := List UInt8

/-- Kafka headers: names with their bytes, in order, repeats allowed. -/
abbrev Headers := List (String × Bytes)

/-- **A per-record publish envelope.** `none` is Python's `UNSET`. -/
structure KafkaSinkMessage where
  value : Option (Option Bytes) := none
  topic : Option String := none
  key : Option (Option Bytes) := none
  partition : Option (Option ℤ) := none
  headers : Option (Option Headers) := none
  timestampMs : Option (Option ℤ) := none
  deriving DecidableEq

/-- What the producer is given for one record. A `message_fn` may set the value
to `None`, so the value is optional here too. -/
structure ResolvedKafkaSinkMessage where
  topic : String
  value : Option Bytes
  key : Option Bytes
  partition : Option ℤ
  headers : Option Headers
  timestampMs : Option ℤ
  deriving DecidableEq

/-- Headers as the producer takes them: `None` and `UNSET` are both no
headers. -/
def coerceHeaders (headers : Option (Option Headers)) : Option Headers :=
  headers.getD none

/-- **How a sink turns a record into a message**: its default topic, its
serializer and the optional callbacks, under the names of the constructor's
arguments. -/
structure Routing (α : Type) where
  topic : String
  serializer : α → Bytes
  messageFn : Option (α → KafkaSinkMessage) := none
  topicFn : Option (α → Option String) := none
  keyFn : Option (α → Option Bytes) := none
  partitionFn : Option (α → Option ℤ) := none
  headersFn : Option (α → Option Headers) := none
  timestampMsFn : Option (α → Option ℤ) := none

namespace Routing

variable {α : Type} (routing : Routing α)

/-- The topic of a record. A callback that returns no topic, or the empty one,
leaves the sink's own. -/
def topicFor (record : α) : String :=
  match routing.topicFn with
  | none => routing.topic
  | some topicFn =>
    match topicFn record with
    | none => routing.topic
    | some topic => if topic = "" then routing.topic else topic

def keyFor (record : α) : Option Bytes :=
  routing.keyFn.bind (fun keyFn => keyFn record)

def partitionFor (record : α) : Option ℤ :=
  routing.partitionFn.bind (fun partitionFn => partitionFn record)

def headersFor (record : α) : Option Headers :=
  routing.headersFn.bind (fun headersFn => headersFn record)

def timestampMsFor (record : α) : Option ℤ :=
  routing.timestampMsFn.bind (fun timestampMsFn => timestampMsFn record)

/-- The overrides of a record: all `UNSET` without a `message_fn`. -/
def messageOverridesFor (record : α) : KafkaSinkMessage :=
  match routing.messageFn with
  | none => {}
  | some messageFn => messageFn record

/-- **The message of a record**, its overrides applied. -/
def publishMessageFor (record : α) : ResolvedKafkaSinkMessage :=
  let payload := routing.messageOverridesFor record
  { topic := payload.topic.getD (routing.topicFor record)
    value := payload.value.getD (some (routing.serializer record))
    key := payload.key.getD (routing.keyFor record)
    partition := payload.partition.getD (routing.partitionFor record)
    headers :=
      match payload.headers with
      | none => routing.headersFor record
      | some headers => coerceHeaders (some headers)
    timestampMs := payload.timestampMs.getD (routing.timestampMsFor record) }

/-- The message of a record as `write_batch` builds it when there is no
`message_fn`: the callbacks are asked directly. -/
def batchMessageFor (record : α) : ResolvedKafkaSinkMessage :=
  { topic := routing.topicFor record
    value := some (routing.serializer record)
    key := routing.keyFor record
    partition := routing.partitionFor record
    headers := routing.headersFor record
    timestampMs := routing.timestampMsFor record }

/-- **The two ways of building a message agree** where both apply, so a record
is published the same by `write` and by `write_batch`. -/
theorem publishMessageFor_eq_batchMessageFor (h : routing.messageFn = none) (record : α) :
    routing.publishMessageFor record = routing.batchMessageFor record := by
  have hover : routing.messageOverridesFor record = {} := by
    unfold messageOverridesFor
    rw [h]
  unfold publishMessageFor batchMessageFor
  rw [hover]
  rfl

end Routing

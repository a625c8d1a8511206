import AgoraPlugins.Dlq.Record
import AgoraPlugins.Fallible
import AgoraPlugins.JsonLimits

/-!
# What is stored for coordination

Leases and workers are stored as JSON, and whatever stands under such a key is read back by these
functions. They expect that a text is malformed, and that it is no object or its fields are of
another type. A lease is expected to be an object, if it is JSON at all; a process id is expected
not to be infinite; and the reader is expected to fail in one way only, which it does not within
the limits of an interpreter.
-/

/-- **`WorkerInfo`** of the core package. -/
structure WorkerInfo where
  workerId : String
  hostname : String
  pid : ℤ
  status : String
  assignedPipelines : List String
  lastHeartbeatAt : String
  deriving DecidableEq

namespace StoredData

open Dlq (Payload)

variable {δ : Type} (py : Python δ) (limits : Json.Limits)

/-- `json.loads` under `except (TypeError, JSONDecodeError)`: the value, or that there is none. -/
def decoded (text : String) : Except Exc (Option Json) :=
  match Json.loadsWithin limits text with
  | .ok v => .ok (some v)
  | .error .malformed => .ok none
  | .error .longInteger => .error (.exception "ValueError"
      "Exceeds the limit for integer string conversion")
  | .error .tooDeep => .error (.exception "RecursionError" "maximum recursion depth exceeded")

/-! ## Workers -/

/-- `except (TypeError, ValueError)` catches it. -/
def isConversionError : Exc → Bool
  | .exception type _ => type = "TypeError" || type = "ValueError"
  | .cancelled => false

/-- `data.get(key, default)`, as a text. -/
def textField (data : Payload) (key default : String) : String :=
  Dlq.str py ((Json.find key data).getD (.str default))

/-- The worker that an object describes. -/
def workerInfo (data : Payload) : Except Exc WorkerInfo := do
  let assigned := match Json.find "assigned_pipelines" data with
    | some (.arr items) => items
    | _ => []
  let pid ← Dlq.int py ((Json.find "pid" data).getD (.num 0))
  pure
    { workerId := textField py data "worker_id" ""
      hostname := textField py data "hostname" ""
      pid := pid
      status := textField py data "status" "unknown"
      assignedPipelines := assigned.map (Dlq.str py)
      lastHeartbeatAt := textField py data "last_heartbeat_at" "" }

/-- What an object describes, unless a field cannot be converted. -/
def describedWorker (data : Payload) : Except Exc (Option WorkerInfo) :=
  match workerInfo py data with
  | .ok worker => .ok (some worker)
  | .error e => if isConversionError e then .ok none else .error e

/-- **`worker_info_from_raw`.** -/
def workerInfoFromRaw : Option String → Except Exc (Option WorkerInfo)
  | none => .ok none
  | some text =>
    match decoded limits text with
    | .ok (some (.obj data)) => describedWorker py data
    | .ok _ => .ok none
    | .error e => .error e

/-! ## Leases -/

/-- A lease is tested that is an object. Anything else has no `get`. -/
def payloadMatches (test : Payload → Bool) : Option String → Except Exc Bool
  | none => .ok false
  | some text =>
    match decoded limits text with
    | .ok none => .ok false
    | .ok (some (.obj data)) => .ok (test data)
    | .ok (some _) => .error (.exception "AttributeError" "object has no attribute 'get'")
    | .error e => .error e

/-- `data.get(key) == text`. -/
def hasText (data : Payload) (key text : String) : Bool :=
  match Json.find key data with
  | some (.str s) => s = text
  | _ => false

/-- `str(data.get(key)) == text`. -/
def readsAs (data : Payload) (key text : String) : Bool :=
  Dlq.str py ((Json.find key data).getD .null) = text

/-- The test of `lease_payload_matches`. -/
def isLeaseOf (workerId : String) (fencingToken : ℕ) (data : Payload) : Bool :=
  hasText data "worker_id" workerId
    && readsAs py data "fencing_token" (Dlq.str py (.num fencingToken))

/-- The test of `lease_payload_matches_redlock`. -/
def isRedlockLeaseOf (workerId acquiredAt : String) (fencingToken : ℕ) (data : Payload) : Bool :=
  hasText data "worker_id" workerId && readsAs py data "acquired_at" acquiredAt
    && readsAs py data "fencing_token" (Dlq.str py (.num fencingToken))

/-- **`lease_payload_matches`.** -/
def leasePayloadMatches (raw : Option String) (workerId : String) (fencingToken : ℕ) :
    Except Exc Bool :=
  payloadMatches limits (isLeaseOf py workerId fencingToken) raw

/-- **`lease_payload_matches_redlock`.** -/
def leasePayloadMatchesRedlock (raw : Option String) (workerId acquiredAt : String)
    (fencingToken : ℕ) : Except Exc Bool :=
  payloadMatches limits (isRedlockLeaseOf py workerId acquiredAt fencingToken) raw

/-! ## What is read without an error -/

/-- **A lease that is read**: nothing, what is malformed, or an object. -/
def Readable (raw : Option String) : Prop :=
  ∀ text ∈ raw, Json.loadsWithin limits text = .error .malformed
    ∨ ∃ data, Json.loadsWithin limits text = .ok (.obj data)

/-- **A worker that is read or skipped**: nothing, what is malformed, and what is JSON, unless it is
an object with an infinite process id. -/
def Skippable (raw : Option String) : Prop :=
  ∀ text ∈ raw, Json.loadsWithin limits text = .error .malformed
    ∨ ∃ v, Json.loadsWithin limits text = .ok v
      ∧ ∀ negative, v.get "pid" ≠ some (.float (.infinite negative))

variable {py} {limits}

theorem readable_some {text : String} : Readable limits (some text)
    ↔ Json.loadsWithin limits text = .error .malformed
      ∨ ∃ data, Json.loadsWithin limits text = .ok (.obj data) := by
  simp [Readable]

theorem skippable_some {text : String} : Skippable limits (some text)
    ↔ Json.loadsWithin limits text = .error .malformed
      ∨ ∃ v, Json.loadsWithin limits text = .ok v
        ∧ ∀ negative, v.get "pid" ≠ some (.float (.infinite negative)) := by
  simp [Skippable]

/-- **A lease is tested if it can be read.** -/
theorem payloadMatches_ok_iff (test : Payload → Bool) (raw : Option String) :
    (∃ b, payloadMatches limits test raw = .ok b) ↔ Readable limits raw := by
  cases raw with
  | none => simp [payloadMatches, Readable]
  | some text =>
    rw [readable_some]
    cases hload : Json.loadsWithin limits text with
    | error e => cases e <;> simp [payloadMatches, decoded, hload]
    | ok v => cases v <;> simp [payloadMatches, decoded, hload]

/-- **It passes if it is an object that does.** -/
theorem payloadMatches_true_iff (test : Payload → Bool) (raw : Option String) :
    payloadMatches limits test raw = .ok true
      ↔ ∃ text ∈ raw, ∃ data, Json.loadsWithin limits text = .ok (.obj data)
        ∧ test data = true := by
  cases raw with
  | none => simp [payloadMatches]
  | some text =>
    have htext : (∃ text' ∈ some text, ∃ data, Json.loadsWithin limits text' = .ok (.obj data)
        ∧ test data = true)
        ↔ ∃ data, Json.loadsWithin limits text = .ok (.obj data) ∧ test data = true := by
      simp
    rw [htext]
    cases hload : Json.loadsWithin limits text with
    | error e => cases e <;> simp [payloadMatches, decoded, hload]
    | ok v => cases v <;> simp [payloadMatches, decoded, hload]

/-! ## What is made of a worker -/

/-- What `int` raises, except for a text. -/
theorem isConversionError_of_int (hint : ∀ s e, py.int s = .error e → isConversionError e = true)
    {v : Json} {e : Exc} (h : Dlq.int py v = .error e) :
    isConversionError e = true ↔ ∀ negative, v ≠ .float (.infinite negative) := by
  cases v with
  | float x =>
    cases x with
    | finite negative m => cases h
    | infinite negative =>
      cases h
      simp [isConversionError]
    | nan =>
      cases h
      simp [isConversionError]
  | str s => simp [hint s e h]
  | num n => cases h
  | bool b => cases h
  | null =>
    cases h
    simp [isConversionError]
  | other text =>
    cases h
    simp [isConversionError]
  | arr items =>
    cases h
    simp [isConversionError]
  | obj members =>
    cases h
    simp [isConversionError]

/-- **An object describes a worker or is skipped**, unless its process id is infinite. -/
theorem describedWorker_ok_iff (hint : ∀ s e, py.int s = .error e → isConversionError e = true)
    (data : Payload) :
    (∃ worker, describedWorker py data = .ok worker)
      ↔ ∀ negative, Json.find "pid" data ≠ some (.float (.infinite negative)) := by
  have hdefault : ∀ negative, (Json.find "pid" data).getD (.num 0) ≠ .float (.infinite negative)
      ↔ Json.find "pid" data ≠ some (.float (.infinite negative)) := by
    intro negative
    cases Json.find "pid" data <;> simp
  unfold describedWorker workerInfo
  cases hpid : Dlq.int py ((Json.find "pid" data).getD (.num 0)) with
  | ok pid =>
    refine iff_of_true ⟨_, rfl⟩ (fun negative heq => ?_)
    rw [heq] at hpid
    cases hpid
  | error e =>
    have hcaught := isConversionError_of_int hint hpid
    simp only [hdefault] at hcaught
    rw [← hcaught]
    show (∃ worker, (if isConversionError e then .ok none else .error e : Except Exc _)
      = .ok worker) ↔ _
    cases isConversionError e <;> simp

/-- **A worker is read or skipped**, just if its text is. -/
theorem workerInfoFromRaw_ok_iff (hint : ∀ s e, py.int s = .error e → isConversionError e = true)
    (raw : Option String) :
    (∃ worker, workerInfoFromRaw py limits raw = .ok worker) ↔ Skippable limits raw := by
  cases raw with
  | none => simp [workerInfoFromRaw, Skippable]
  | some text =>
    rw [skippable_some]
    cases hload : Json.loadsWithin limits text with
    | error e => cases e <;> simp [workerInfoFromRaw, decoded, hload]
    | ok v =>
      cases v with
      | obj data =>
        simpa [workerInfoFromRaw, decoded, hload] using describedWorker_ok_iff hint data
      | _ => simp [workerInfoFromRaw, decoded, hload, Json.get]

end StoredData

import AgoraPlugins.Fallible
import AgoraPlugins.Machine
import AgoraPlugins.Reply
import Mathlib.Data.Fintype.Basic
import Mathlib.Data.List.Nodup
import Mathlib.Logic.Function.Basic

/-!
# The BigQuery sinks with several callers

A `BigQuerySink` loads its buffer with one load job, the first of which may replace what is in
the table; a `BigQueryStorageWriteSink` appends it in requests of a limited size. Both take a
snapshot of the buffer, await each request in a thread, and then take as many rows from the
front of the buffer as the request had. In the meantime other calls may write, and flush.

That a request takes effect and that the call is resumed are two events. Rows are numbered in
the order in which they are written. Each of them is in the table or in the buffer, once, as
long as no call takes its snapshot while another has one: the second snapshot would hold rows
of the first.
-/

open Machine

namespace BigQuerySinks

/-! ## The settings -/

/-- What a row mapper returns: a `dict`, or a value of another type. -/
inductive Mapped (δ : Type) where
  | dict (row : δ)
  | other (typeName : String)

/-- The settings of a `BigQuerySink`. -/
structure BigQuerySink (ρ δ : Type) where
  rowMapper : ρ → Except Exc (Mapped δ)
  batchSize : ℕ
  batchSize_pos : 0 < batchSize
  /-- `write_disposition` is `"truncate"` -/
  truncate : Bool

/-- The settings of a `BigQueryStorageWriteSink`. -/
structure StorageWriteSink (ρ δ : Type) where
  rowMapper : ρ → Except Exc (Mapped δ)
  serializeRow : δ → Except Exc (List UInt8)
  batchSize : ℕ
  batchSize_pos : 0 < batchSize
  maxRequestBytes : ℕ

/-- **A sink** of either kind. -/
inductive Sink (ρ δ : Type) where
  | loadJobs (sink : BigQuerySink ρ δ)
  | storageWrite (sink : StorageWriteSink ρ δ)

/-- A record, with its number. -/
abbrev Row (ρ : Type) := ρ × ℕ

section Requests

variable {ρ δ α : Type}

/-- **`_coerce_row`** of either sink, with its error. -/
def coerceRow (rowMapper : ρ → Except Exc (Mapped δ)) (error : String) (row : Row ρ) :
    Except Exc δ := do
  match ← rowMapper row.1 with
  | .dict mapped => pure mapped
  | .other typeName => throw (.exception "TypeError" (error ++ "Got " ++ typeName ++ "."))

/-- **The loop of `chunk_serialized_rows`**, with its current chunk and its size. -/
def chunkFrom (size : α → ℕ) (maxRequestBytes : ℕ) :
    List α → List α → ℕ → Except Exc (List (List α))
  | [], current, _ => .ok (if current = [] then [] else [current])
  | x :: xs, current, n =>
    if maxRequestBytes < size x then
      .error (.exception "BigQueryStorageWriteSinkError"
        ("BigQuery Storage Write flush contains a single row that exceeds the configured "
          ++ "request-size guard. Reduce payload size for this phase-2 sink."))
    else if current ≠ [] ∧ maxRequestBytes < n + size x then
      (chunkFrom size maxRequestBytes xs [x] (size x)).map (current :: ·)
    else chunkFrom size maxRequestBytes xs (current ++ [x]) (n + size x)

/-- **`chunk_serialized_rows`**, of payloads with the rows they serialise. -/
def chunkSerializedRows (maxRequestBytes : ℕ) (payloads : List (List UInt8 × Row ρ)) :
    Except Exc (List (List (List UInt8 × Row ρ))) :=
  chunkFrom (fun p => p.1.length) maxRequestBytes payloads [] 0

namespace Sink

def batchSize : Sink ρ δ → ℕ
  | .loadJobs sink => sink.batchSize
  | .storageWrite sink => sink.batchSize

/-- Whether the first request replaces what is in the table. -/
def truncates : Sink ρ δ → Bool
  | .loadJobs sink => sink.truncate
  | .storageWrite _ => false

/-- **The requests for a batch**, or what is raised before the first of them. -/
def requests : Sink ρ δ → List (Row ρ) → Except Exc (List (List (Row ρ)))
  | .loadJobs sink, batch => do
    let _ ← batch.mapM (coerceRow sink.rowMapper
      "BigQuerySink row_mapper must return dict[str, Any] for load jobs. ")
    pure [batch]
  | .storageWrite sink, batch => do
    let rows ← batch.mapM (coerceRow sink.rowMapper
      "BigQueryStorageWriteSink row_mapper must return dict[str, object] for append rows. ")
    let payloads ← rows.mapM sink.serializeRow
    let chunks ← chunkSerializedRows sink.maxRequestBytes (payloads.zip batch)
    pure (chunks.map (List.map Prod.snd))

end Sink

/-- The chunks hold what was to be chunked, in its order. -/
theorem flatten_chunkFrom {size : α → ℕ} {maxRequestBytes : ℕ} {xs current : List α} {n : ℕ}
    {chunks : List (List α)} (h : chunkFrom size maxRequestBytes xs current n = .ok chunks) :
    chunks.flatten = current ++ xs := by
  induction xs generalizing current n chunks with
  | nil =>
    obtain rfl := Except.ok.inj h
    by_cases hc : current = []
    · simp [hc]
    · simp [hc]
  | cons x xs ih =>
    unfold chunkFrom at h
    split at h
    · cases h
    · split at h
      · obtain ⟨rest, hrest, rfl⟩ := Fallible.map_eq_ok_iff.1 h
        show current ++ rest.flatten = _
        rw [ih hrest]
        rfl
      · rw [ih h, List.append_assoc]
        rfl

/-- **The requests hold the batch**, in its order. -/
theorem Sink.flatten_requests {sink : Sink ρ δ} {batch : List (Row ρ)}
    {requests : List (List (Row ρ))} (h : sink.requests batch = .ok requests) :
    requests.flatten = batch := by
  cases sink with
  | loadJobs sink =>
    obtain ⟨_, _, h⟩ := Fallible.bind_eq_ok_iff.1 h
    obtain rfl := Except.ok.inj h
    simp
  | storageWrite sink =>
    obtain ⟨rows, hrows, h⟩ := Fallible.bind_eq_ok_iff.1 h
    obtain ⟨payloads, hpayloads, h⟩ := Fallible.bind_eq_ok_iff.1 h
    obtain ⟨chunks, hchunks, h⟩ := Fallible.bind_eq_ok_iff.1 h
    obtain rfl := Except.ok.inj h
    have hlength : payloads.length = batch.length :=
      (Fallible.length_of_mapM_eq_ok hpayloads).trans (Fallible.length_of_mapM_eq_ok hrows)
    rw [← List.map_flatten, flatten_chunkFrom hchunks, List.nil_append]
    exact List.map_snd_zip hlength.ge

end Requests

/-! ## Calls and their events -/

/-- **Where a call is.** -/
inductive Pc (ρ : Type) where
  /-- not made yet -/
  | idle
  /-- awaiting the session -/
  | opening
  /-- awaiting a request that has not taken effect, with those to come -/
  | loading (rows : List (Row ρ)) (truncate : Bool) (rest : List (List (Row ρ)))
  /-- awaiting a request that has -/
  | loaded (rows : List (Row ρ)) (rest : List (List (Row ρ)))
  | returned
  | raised

/-- A call with a snapshot of the buffer. -/
def Pc.Flushing {ρ : Type} : Pc ρ → Prop
  | .loading _ _ _ | .loaded _ _ => True
  | _ => False

instance {ρ : Type} (pc : Pc ρ) : Decidable pc.Flushing := by
  unfold Pc.Flushing
  split <;> infer_instance

/-- The state of a sink and its calls: the rows that its requests have put into the table and
no request has removed, and the records that it has been given. -/
structure State (ρ ι : Type) where
  buffer : List (Row ρ) := []
  truncatePending : Bool
  connected : Bool := false
  calls : ι → Pc ρ := fun _ => .idle
  table : List (Row ρ) := []
  accepted : List ρ := []

/-- The methods that several tasks may call at once, with the records they are called with. -/
inductive Method (ρ : Type) where
  | write (record : ρ)
  | writeBatch (records : List ρ)
  | flush

def Method.records {ρ : Type} : Method ρ → List ρ
  | .write record => [record]
  | .writeBatch records => records
  | .flush => []

/-- What happens at an await point. -/
inductive Event (ρ ι : Type) where
  /-- a method is called; `built` is what comes of building a client, if that has to be done -/
  | call (i : ι) (method : Method ρ) (built : Except Exc PUnit)
  /-- the session is open, or opening it has raised -/
  | opened (i : ι) (reply : Except Exc PUnit)
  /-- the request of a call takes effect -/
  | loaded (i : ι)
  /-- a call is resumed after its request -/
  | resumed (i : ι)

variable {ρ δ ι : Type} [DecidableEq ι] (sink : Sink ρ δ)

namespace State

variable (s : State ρ ι)

/-- A call goes on to where it awaits something next, or ends. -/
def put (i : ι) (pc : Pc ρ) : State ρ ι :=
  { s with calls := Function.update s.calls i pc }

@[simp] theorem put_calls_self (i : ι) (pc : Pc ρ) : (s.put i pc).calls i = pc := by
  simp [put]

theorem put_calls_of_ne {i j : ι} (h : j ≠ i) (pc : Pc ρ) :
    (s.put i pc).calls j = s.calls j := by
  simp [put, h]

@[simp] theorem put_table (i : ι) (pc : Pc ρ) : (s.put i pc).table = s.table := rfl

/-- The records of a call join the buffer. -/
def accept (records : List ρ) : State ρ ι :=
  { s with
    buffer := s.buffer ++ records.zipIdx s.accepted.length
    accepted := s.accepted ++ records }

/-- **A flush has its snapshot**, and makes the first request. -/
def submit (i : ι) : State ρ ι :=
  match sink.requests s.buffer with
  | .error _ => s.put i .raised
  | .ok [] => s.put i .returned
  | .ok (rows :: rest) => s.put i (.loading rows s.truncatePending rest)

/-- **`flush`.** A load job's client is built without an await point. -/
def flush (i : ι) (built : Except Exc PUnit) : State ρ ι :=
  if s.buffer = [] then s.put i .returned
  else if s.connected then s.submit sink i
  else match sink, built with
    | .loadJobs _, .ok _ => { s with connected := true }.submit sink i
    | .loadJobs _, .error _ => s.put i .raised
    | .storageWrite _, _ => s.put i .opening

/-- **`write`, `write_batch` and `flush`**, the records being in the buffer. -/
def perform (i : ι) (built : Except Exc PUnit) : Method ρ → State ρ ι
  | .flush => s.flush sink i built
  | .write _ | .writeBatch _ =>
    if sink.batchSize ≤ s.buffer.length then s.flush sink i built else s.put i .returned

/-- What a call does after a request. -/
def afterRequest (i : ι) : List (List (Row ρ)) → State ρ ι
  | [] => s.put i .returned
  | rows :: rest => s.put i (.loading rows false rest)

end State

/-- **One event.** -/
def step (s : State ρ ι) : Event ρ ι → Option (State ρ ι)
  | .call i method built =>
    match s.calls i with
    | .idle => some ((s.accept method.records).perform sink i built method)
    | _ => none
  | .opened i reply =>
    match s.calls i, reply with
    | .opening, .ok _ => some ({ s with connected := true }.submit sink i)
    | .opening, .error _ => some (s.put i .raised)
    | _, _ => none
  | .loaded i =>
    match s.calls i with
    | .loading rows truncate rest =>
      some { s.put i (.loaded rows rest) with
        table := (if truncate then [] else s.table) ++ rows }
    | _ => none
  | .resumed i =>
    match s.calls i with
    | .loaded rows rest =>
      some ({ s with
        buffer := s.buffer.drop rows.length
        truncatePending := false }.afterRequest i rest)
    | _ => none

/-- **A new sink**, which may have been given its client. -/
def initial (connected : Bool) : State ρ ι where
  truncatePending := sink.truncates
  connected := connected

/-! ## The law -/

/-- No call has a snapshot of the buffer. -/
def Quiescent (s : State ρ ι) : Prop :=
  ∀ i, ¬ (s.calls i).Flushing

instance [Fintype ι] (s : State ρ ι) : Decidable (Quiescent s) :=
  inferInstanceAs (Decidable (∀ _ : ι, _))

/-- **When no call has a snapshot, each row accepted is once in the table or in the buffer.** -/
def Accounted (s : State ρ ι) : Prop :=
  Quiescent s → ∀ row ∈ s.accepted.zipIdx,
    row ∈ s.table ++ s.buffer ∧ ((s.table ++ s.buffer).map Prod.snd).count row.2 = 1

instance [DecidableEq ρ] [Fintype ι] (s : State ρ ι) : Decidable (Accounted s) :=
  inferInstanceAs (Decidable (_ → ∀ row ∈ s.accepted.zipIdx, _))

/-- A flush of the batch makes a request. -/
def Sends (batch : List (Row ρ)) : Bool :=
  match sink.requests batch with
  | .ok (_ :: _) => true
  | _ => false

/-- A call flushes the buffer. -/
def Method.flushes (buffer : List (Row ρ)) : Method ρ → Prop
  | .flush => buffer ≠ []
  | .write _ | .writeBatch _ => buffer ≠ [] ∧ sink.batchSize ≤ buffer.length

/-- A client is built without an await point. -/
def Sink.builds : Sink ρ δ → Except Exc PUnit → Bool
  | .loadJobs _, .ok _ => true
  | _, _ => false

instance [DecidableEq ρ] (buffer : List (Row ρ)) (method : Method ρ) :
    Decidable (method.flushes sink buffer) := by
  unfold Method.flushes
  split <;> infer_instance

/-- There is a client, or one is built at once. -/
def Connects (s : State ρ ι) (built : Except Exc PUnit) : Prop :=
  s.connected = true ∨ sink.builds built = true

/-- **The event gives a call its snapshot**, and the call makes a request. -/
def Submits (s : State ρ ι) : Event ρ ι → Prop
  | .call _ method built =>
    method.flushes sink (s.accept method.records).buffer ∧ Connects sink s built
      ∧ Sends sink (s.accept method.records).buffer = true
  | .opened _ (.ok _) => Sends sink s.buffer = true
  | .opened _ (.error _) | .loaded _ | .resumed _ => False

instance [DecidableEq ρ] (s : State ρ ι) (e : Event ρ ι) : Decidable (Submits sink s e) := by
  unfold Submits Connects
  split <;> infer_instance

/-- **A call takes a snapshot only when no other has one.** -/
def Alone (s : State ρ ι) (e : Event ρ ι) : Prop :=
  Submits sink s e → Quiescent s

instance [DecidableEq ρ] [Fintype ι] (s : State ρ ι) (e : Event ρ ι) :
    Decidable (Alone sink s e) :=
  inferInstanceAs (Decidable (_ → _))

/-! ## What a step keeps -/

/-- What holds when no request is under way. -/
structure Books (s : State ρ ι) : Prop where
  rows : s.accepted.zipIdx = s.table ++ s.buffer
  fresh : s.truncatePending = true → s.table = []

/-- What a call's snapshot is to the buffer. -/
def Consistent (s : State ρ ι) : Pc ρ → Prop
  | .loading rows truncate rest =>
    Books s ∧ (rows ++ rest.flatten) <+: s.buffer ∧ (truncate = true → s.truncatePending = true)
  | .loaded rows rest =>
    s.accepted.zipIdx = s.table ++ s.buffer.drop rows.length
      ∧ (rows ++ rest.flatten) <+: s.buffer
  | _ => True

/-- **The invariant.** -/
structure Held (s : State ρ ι) : Prop where
  one : ∀ i j, (s.calls i).Flushing → (s.calls j).Flushing → i = j
  each : ∀ i, Consistent s (s.calls i)
  books : Quiescent s → Books s

omit [DecidableEq ι] in
/-- A call that does not flush knows nothing that could be wrong. -/
theorem consistent_of_not_flushing {s : State ρ ι} {pc : Pc ρ} (h : ¬ pc.Flushing) :
    Consistent s pc := by
  cases pc with
  | loading rows truncate rest => exact absurd trivial h
  | loaded rows rest => exact absurd trivial h
  | idle => trivial
  | opening => trivial
  | returned => trivial
  | raised => trivial

omit [DecidableEq ι] in
/-- The books are right where nothing in them changes. -/
theorem Books.frame {s t : State ρ ι} (h : Books s) (hbuffer : t.buffer = s.buffer)
    (hpending : t.truncatePending = s.truncatePending) (htable : t.table = s.table)
    (haccepted : t.accepted = s.accepted) : Books t where
  rows := by rw [haccepted, htable, hbuffer, h.rows]
  fresh := by rw [hpending, htable]; exact h.fresh

omit [DecidableEq ι] in
/-- What a call's snapshot is to the buffer does not depend on the other calls. -/
theorem Consistent.frame {s t : State ρ ι} {pc : Pc ρ} (h : Consistent s pc)
    (hbuffer : t.buffer = s.buffer) (hpending : t.truncatePending = s.truncatePending)
    (htable : t.table = s.table) (haccepted : t.accepted = s.accepted) : Consistent t pc := by
  unfold Consistent at h ⊢
  split at h
  · rw [hbuffer, hpending]
    exact ⟨h.1.frame hbuffer hpending htable haccepted, h.2⟩
  · rw [haccepted, htable, hbuffer]
    exact h
  · trivial

omit [DecidableEq ι] in
/-- **Records that are accepted** are in the buffer. -/
theorem Books.accept {s : State ρ ι} (h : Books s) (records : List ρ) :
    Books (s.accept records) where
  rows := by
    show (s.accepted ++ records).zipIdx = s.table ++ (s.buffer ++ records.zipIdx s.accepted.length)
    rw [List.zipIdx_append, h.rows, List.append_assoc, Nat.zero_add]
  fresh := h.fresh

omit [DecidableEq ι] in
/-- Which makes no difference to a flush that is under way: its rows come before them. -/
theorem Consistent.accept {s : State ρ ι} {pc : Pc ρ} (h : Consistent s pc)
    (records : List ρ) : Consistent (s.accept records) pc := by
  have hbuffer : s.buffer <+: (s.accept records).buffer := List.prefix_append _ _
  cases pc with
  | loading rows truncate rest => exact ⟨h.1.accept records, h.2.1.trans hbuffer, h.2.2⟩
  | loaded rows rest =>
    have hle : rows.length ≤ s.buffer.length :=
      ((List.prefix_append rows rest.flatten).trans h.2).length_le
    refine ⟨?_, h.2.trans hbuffer⟩
    show (s.accepted ++ records).zipIdx
      = s.table ++ (s.buffer ++ records.zipIdx s.accepted.length).drop rows.length
    rw [List.zipIdx_append, h.1, List.drop_append_of_le_length hle, List.append_assoc,
      Nat.zero_add]
  | idle => trivial
  | opening => trivial
  | returned => trivial
  | raised => trivial

namespace Held

variable {sink} {s : State ρ ι}

omit [DecidableEq ι] in
theorem initial (connected : Bool) : Held (initial sink connected : State ρ ι) where
  one := fun _ _ h => h.elim
  each := fun _ => trivial
  books := fun _ => ⟨rfl, fun _ => rfl⟩

omit [DecidableEq ι] in
theorem accept (h : Held s) (records : List ρ) : Held (s.accept records) where
  one := h.one
  each := fun i => (h.each i).accept records
  books := fun hq => (h.books hq).accept records

omit [DecidableEq ι] in
theorem connect (h : Held s) : Held { s with connected := true } where
  one := h.one
  each := fun i => (h.each i).frame rfl rfl rfl rfl
  books := fun hq => (h.books hq).frame rfl rfl rfl rfl

/-- A call without a snapshot goes on to where it has none. -/
theorem put (h : Held s) {i : ι} {pc : Pc ρ} (hi : ¬ (s.calls i).Flushing)
    (hpc : ¬ pc.Flushing) : Held (s.put i pc) := by
  have hcalls : ∀ j, ((s.put i pc).calls j).Flushing ↔ (s.calls j).Flushing := by
    intro j
    by_cases hji : j = i
    · subst hji
      rw [State.put_calls_self]
      exact iff_of_false hpc hi
    · rw [State.put_calls_of_ne s hji]
  refine ⟨fun j k hj hk => h.one j k ((hcalls j).1 hj) ((hcalls k).1 hk), fun j => ?_,
    fun hq => ?_⟩
  · by_cases hji : j = i
    · subst hji
      rw [State.put_calls_self]
      exact consistent_of_not_flushing hpc
    · rw [State.put_calls_of_ne s hji]
      exact (h.each j).frame rfl rfl rfl rfl
  · exact (h.books fun j hj => hq j ((hcalls j).2 hj)).frame rfl rfl rfl rfl

/-- **The only snapshot is of the call `i`**, whose next request it holds. -/
theorem of_put (i : ι) {pc : Pc ρ} (hothers : ∀ j, j ≠ i → ¬ (s.calls j).Flushing)
    (hpc : Consistent s pc) (hbooks : ¬ pc.Flushing → Books s) : Held (s.put i pc) := by
  refine ⟨fun j k hj hk => ?_, fun j => ?_, fun hq => ?_⟩
  · have heq : ∀ l, ((s.put i pc).calls l).Flushing → l = i := by
      intro l hl
      by_contra hli
      rw [State.put_calls_of_ne s hli] at hl
      exact hothers l hli hl
    rw [heq j hj, heq k hk]
  · by_cases hji : j = i
    · subst hji
      rw [State.put_calls_self]
      exact hpc.frame rfl rfl rfl rfl
    · rw [State.put_calls_of_ne s hji]
      exact consistent_of_not_flushing (hothers j hji)
  · have hi := hq i
    rw [State.put_calls_self] at hi
    exact (hbooks hi).frame rfl rfl rfl rfl

/-- **A flush has its snapshot.** Its requests hold the buffer. -/
theorem submit (h : Held s) {i : ι} (hi : ¬ (s.calls i).Flushing)
    (halone : Sends sink s.buffer = true → Quiescent s) : Held (s.submit sink i) := by
  unfold State.submit
  split
  · exact h.put hi id
  · exact h.put hi id
  · rename_i rows rest hrequests
    have hsends : Sends sink s.buffer = true := by
      unfold Sends
      rw [hrequests]
    have hq : Quiescent s := halone hsends
    have hflatten : rows ++ rest.flatten = s.buffer := sink.flatten_requests hrequests
    refine of_put i (fun j _ => hq j) ⟨h.books hq, ?_, id⟩ (fun hpc => absurd trivial hpc)
    rw [hflatten]

/-- **A flush begins** while no other one is under way. -/
theorem flush (h : Held s) {i : ι} (built : Except Exc PUnit)
    (hi : ¬ (s.calls i).Flushing)
    (halone : s.buffer ≠ [] → Connects sink s built → Sends sink s.buffer = true →
      Quiescent s) : Held (s.flush sink i built) := by
  unfold State.flush
  split
  · exact h.put hi id
  · rename_i hbuffer
    split
    · rename_i hconnected
      exact h.submit hi (halone hbuffer (.inl hconnected))
    · split
      · exact h.connect.submit hi (halone hbuffer (.inr rfl))
      · exact h.put hi id
      · exact h.put hi id

/-- **A method is called.** -/
theorem perform (h : Held s) {i : ι} (built : Except Exc PUnit) (method : Method ρ)
    (hi : ¬ (s.calls i).Flushing)
    (halone : method.flushes sink s.buffer → Connects sink s built →
      Sends sink s.buffer = true → Quiescent s) : Held (s.perform sink i built method) := by
  have hrows : (s.buffer ≠ [] ∧ sink.batchSize ≤ s.buffer.length → Connects sink s built →
      Sends sink s.buffer = true → Quiescent s) →
      Held (if sink.batchSize ≤ s.buffer.length then s.flush sink i built
        else s.put i .returned) := by
    intro halone
    split
    · rename_i hfull
      exact h.flush built hi (fun hbuffer => halone ⟨hbuffer, hfull⟩)
    · exact h.put hi id
  cases method with
  | flush => exact h.flush built hi halone
  | write record => exact hrows halone
  | writeBatch records => exact hrows halone

/-- **A request takes effect.** A first request that replaces what is in the table finds
nothing of this sink there. -/
theorem loaded (h : Held s) {i : ι} {rows : List (Row ρ)} {truncate : Bool}
    {rest : List (List (Row ρ))} (hi : s.calls i = .loading rows truncate rest) :
    (if truncate then [] else s.table) = s.table
      ∧ Held { s.put i (.loaded rows rest) with table := s.table ++ rows } := by
  have hconsistent := h.each i
  rw [hi] at hconsistent
  obtain ⟨hbooks, hinitial, htruncate⟩ := hconsistent
  constructor
  · split
    · rename_i ht
      exact (hbooks.fresh (htruncate ht)).symm
    · rfl
  · have hothers : ∀ j, j ≠ i → ¬ (s.calls j).Flushing := by
      intro j hji hj
      refine hji (h.one j i hj ?_)
      rw [hi]
      trivial
    refine of_put (s := { s with table := s.table ++ rows }) i hothers ⟨?_, hinitial⟩
      (fun hpc => absurd trivial hpc)
    show s.accepted.zipIdx = s.table ++ rows ++ s.buffer.drop rows.length
    have hrows : rows ++ s.buffer.drop rows.length = s.buffer :=
      List.prefix_append_drop ((List.prefix_append _ _).trans hinitial) |>.symm
    rw [List.append_assoc, hrows, hbooks.rows]

/-- **A call is resumed after its request**, and takes its rows out of the buffer. -/
theorem resumed (h : Held s) {i : ι} {rows : List (Row ρ)} {rest : List (List (Row ρ))}
    (hi : s.calls i = .loaded rows rest) :
    Held ({ s with
      buffer := s.buffer.drop rows.length
      truncatePending := false }.afterRequest i rest) := by
  have hconsistent := h.each i
  rw [hi] at hconsistent
  obtain ⟨hrows, hinitial⟩ := hconsistent
  have hothers : ∀ j, j ≠ i → ¬ (s.calls j).Flushing := by
    intro j hji hj
    refine hji (h.one j i hj ?_)
    rw [hi]
    trivial
  have hbooks : Books { s with buffer := s.buffer.drop rows.length, truncatePending := false } :=
    ⟨hrows, nofun⟩
  cases rest with
  | nil => exact of_put i hothers trivial (fun _ => hbooks)
  | cons next rest =>
    refine of_put i hothers ⟨hbooks, ?_, nofun⟩ (fun hpc => absurd trivial hpc)
    show next ++ rest.flatten <+: s.buffer.drop rows.length
    obtain ⟨later, hlater⟩ := hinitial
    rw [← hlater, List.append_assoc, List.drop_left]
    exact List.prefix_append _ _

end Held

theorem State.submit_table (s : State ρ ι) (i : ι) : (s.submit sink i).table = s.table := by
  unfold State.submit
  split <;> rfl

theorem State.perform_table (s : State ρ ι) (i : ι) (built : Except Exc PUnit)
    (method : Method ρ) : (s.perform sink i built method).table = s.table := by
  have hflush : (s.flush sink i built).table = s.table := by
    unfold State.flush
    split
    · rfl
    · split
      · exact s.submit_table sink i
      · split
        · exact State.submit_table _ _ i
        · rfl
        · rfl
  unfold State.perform
  split
  · exact hflush
  all_goals
    split
    · exact hflush
    · rfl

theorem State.afterRequest_table (s : State ρ ι) (i : ι) (rest : List (List (Row ρ))) :
    (s.afterRequest i rest).table = s.table := by
  cases rest <;> rfl

/-- **Every step keeps the invariant and the rows in the table**, if no call takes a snapshot
while another has one. -/
theorem Held.step {s t : State ρ ι} {e : Event ρ ι} (h : Held s) (halone : Alone sink s e)
    (ht : step sink s e = some t) : Held t ∧ s.table <+: t.table := by
  cases e with
  | call i method built =>
    unfold BigQuerySinks.step at ht
    dsimp only at ht
    split at ht
    · rename_i hi
      obtain rfl := Option.some.inj ht
      rw [State.perform_table]
      refine ⟨(h.accept method.records).perform built method ?_ ?_, List.prefix_rfl⟩
      · show ¬ (s.calls i).Flushing
        rw [hi]
        exact id
      · exact fun hflushes hconnects hsends => halone ⟨hflushes, hconnects, hsends⟩
    · cases ht
  | opened i reply =>
    unfold BigQuerySinks.step at ht
    dsimp only at ht
    have hnot : s.calls i = .opening → ¬ (s.calls i).Flushing := by
      intro hi
      rw [hi]
      exact id
    split at ht
    · rename_i hi
      obtain rfl := Option.some.inj ht
      rw [State.submit_table]
      exact ⟨h.connect.submit (hnot hi) halone, List.prefix_rfl⟩
    · rename_i hi
      obtain rfl := Option.some.inj ht
      exact ⟨h.put (hnot hi) id, List.prefix_rfl⟩
    · cases ht
  | loaded i =>
    unfold BigQuerySinks.step at ht
    dsimp only at ht
    split at ht
    · rename_i rows truncate rest hi
      obtain ⟨htable, hheld⟩ := h.loaded hi
      obtain rfl := Option.some.inj ht
      rw [htable]
      exact ⟨hheld, List.prefix_append _ _⟩
    · cases ht
  | resumed i =>
    unfold BigQuerySinks.step at ht
    dsimp only at ht
    split at ht
    · rename_i rows rest hi
      obtain rfl := Option.some.inj ht
      rw [State.afterRequest_table]
      exact ⟨h.resumed hi, List.prefix_rfl⟩
    · cases ht

omit [DecidableEq ι] in
/-- **What is held is accounted for.** -/
theorem Held.accounted {s : State ρ ι} (h : Held s) : Accounted s := by
  intro hq row hrow
  have hrows := (h.books hq).rows
  refine ⟨hrows ▸ hrow, ?_⟩
  have hnumbers : s.accepted.zipIdx.map Prod.snd = List.range' 0 s.accepted.length :=
    List.zipIdx_map_snd 0 s.accepted
  rw [← hrows]
  refine List.count_eq_one_of_mem ?_ (List.mem_map_of_mem hrow)
  rw [hnumbers]
  exact List.nodup_range'

/-! ## Every run -/

/-- **No row is lost or loaded twice, and none is removed from the table**, in every run in
which a call takes a snapshot only when no other has one. -/
theorem allStates_accounted (connected : Bool) (es : List (Event ρ ι))
    (h : AllSteps (step sink) (fun s e _ => Alone sink s e) (initial sink connected) es) :
    AllStates (step sink) Accounted (initial sink connected) es
      ∧ AllSteps (step sink) (fun s _ t => s.table <+: t.table) (initial sink connected) es := by
  have hinitial : Held (initial sink connected : State ρ ι) := Held.initial connected
  constructor
  · exact (allStates_of_step (fun s e t hs halone ht => (hs.step sink halone ht).1) hinitial
      h).mono (fun s hs => hs.accounted)
  · exact allSteps_of_step (fun s e t hs halone ht => hs.step sink halone ht) hinitial h

/-- A Storage Write sink whose requests have at most two rows of three bytes. -/
def smallRequests : Sink ℕ ℕ :=
  .storageWrite
    { rowMapper := fun n => .ok (.dict n)
      serializeRow := fun n => .ok [8, 1, n.toUInt8]
      batchSize := 500
      batchSize_pos := by decide
      maxRequestBytes := 7 }

/-- Three rows are flushed in two requests, with another row written in between. -/
def writtenBetween : List (Event ℕ (Fin 3)) :=
  [.call 0 (.writeBatch [5, 6, 7]) (.ok ⟨⟩), .call 1 .flush (.ok ⟨⟩), .loaded 1, .resumed 1,
    .call 2 (.write 8) (.ok ⟨⟩), .loaded 1, .resumed 1]

/-- A record that is written while a flush is under way is flushed after it. -/
theorem allStates_accounted_writtenBetween :
    AllStates (step smallRequests) Accounted (initial smallRequests true) writtenBetween
      ∧ AllSteps (step smallRequests) (fun s _ t => s.table <+: t.table)
        (initial smallRequests true) writtenBetween :=
  allStates_accounted smallRequests true writtenBetween (by decide)

/-- A sink of load jobs. -/
def loadJobs (truncate : Bool) : Sink ℕ ℕ :=
  .loadJobs
    { rowMapper := fun n => .ok (.dict n)
      batchSize := 500
      batchSize_pos := by decide
      truncate }

/-- A row is written, and flushed by two calls at once, while another is written: the first is
loaded twice and the other is dropped. -/
def flushedTwice : List (Event ℕ (Fin 4)) :=
  [.call 0 (.write 7) (.ok ⟨⟩), .call 1 .flush (.ok ⟨⟩), .call 2 .flush (.ok ⟨⟩),
    .call 3 (.write 8) (.ok ⟨⟩), .loaded 1, .resumed 1, .loaded 2, .resumed 2]

/-- The load job of the call that has the shorter snapshot is the last to replace what is in
the table. -/
def replacedTwice : List (Event ℕ (Fin 4)) :=
  [.call 0 (.write 7) (.ok ⟨⟩), .call 1 .flush (.ok ⟨⟩), .call 3 (.write 8) (.ok ⟨⟩),
    .call 2 .flush (.ok ⟨⟩), .loaded 2, .loaded 1]

/-- **Two flushes at once** lose records, insert them twice, or empty the table under one another.
-/
theorem not_accounted_flushedTwice :
    ¬ AllStates (step (loadJobs false)) Accounted (initial (loadJobs false) false) flushedTwice
      ∧ ¬ AllStates (step smallRequests) Accounted (initial smallRequests true) flushedTwice
      ∧ ¬ AllSteps (step (loadJobs true)) (fun s _ t => s.table <+: t.table)
        (initial (loadJobs true) false) replacedTwice := by
  decide

end BigQuerySinks

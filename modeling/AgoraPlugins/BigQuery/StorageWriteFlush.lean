import AgoraPlugins.BigQuery.SinkConcurrency
import AgoraPlugins.Effect
import AgoraPlugins.GreedyRuns

/-!
# A flush of the Storage Write sink

A flush makes payloads of all rows of the buffer, divides them into chunks, and appends one chunk
after the other; when an append returns, its rows are taken from the front of the buffer. So an
append that raises leaves in the buffer the rows of its own chunk and of those to come, and what is
raised before the first append leaves all of them.

There is one caller here. What several of them do to each other is said of the events of a sink.
-/

open Effect

namespace BigQuerySinks

variable {ρ δ α : Type}

/-! ## Chunks -/

/-- **The chunks are as long as they can be.** -/
theorem greedy_chunkFrom {size : α → ℕ} {maxRequestBytes : ℕ} {xs current : List α} {n : ℕ}
    {chunks : List (List α)} (h : chunkFrom size maxRequestBytes xs current n = .ok chunks)
    (hn : n = Runs.total size current) (hle : n ≤ maxRequestBytes) :
    Runs.Greedy size maxRequestBytes chunks := by
  induction xs generalizing current n chunks with
  | nil =>
    obtain rfl := Except.ok.inj h
    split_ifs with hempty
    · trivial
    · exact ⟨hempty, hn ▸ hle, fun x hx => absurd hx (Option.not_mem_none x), trivial⟩
  | cons x xs ih =>
    unfold chunkFrom at h
    split_ifs at h with hover hfull
    · obtain ⟨rest, hrest, rfl⟩ := Fallible.map_eq_ok_iff.1 h
      refine ⟨hfull.1, hn ▸ hle, fun y hy => ?_, ih hrest ?_ (not_lt.1 hover)⟩
      · rw [flatten_chunkFrom hrest] at hy
        obtain rfl := Option.some.inj hy
        exact hn ▸ hfull.2
      · rw [Runs.total_cons, Runs.total_nil, Nat.add_zero]
    · refine ih h ?_ ?_
      · rw [Runs.total_append, ← hn, Runs.total_cons, Runs.total_nil, Nat.add_zero]
      · by_cases hempty : current = []
        · subst hempty
          rw [Runs.total_nil] at hn
          omega
        · exact not_lt.1 (fun hlt => hfull ⟨hempty, hlt⟩)

/-- Where nothing is too large, there are chunks. -/
theorem exists_chunkFrom {size : α → ℕ} {maxRequestBytes : ℕ} {xs : List α}
    (h : ∀ x ∈ xs, size x ≤ maxRequestBytes) (current : List α) (n : ℕ) :
    ∃ chunks, chunkFrom size maxRequestBytes xs current n = .ok chunks := by
  induction xs generalizing current n with
  | nil => exact ⟨_, rfl⟩
  | cons x xs ih =>
    obtain ⟨hx, hxs⟩ := List.forall_mem_cons.1 h
    unfold chunkFrom
    rw [if_neg (not_lt.2 hx)]
    split_ifs
    · obtain ⟨rest, hrest⟩ := ih hxs [x] (size x)
      exact ⟨current :: rest, by rw [hrest]; rfl⟩
    · exact ih hxs _ _

/-- Nothing is chunked that is too large by itself. -/
theorem size_le_of_chunkFrom {size : α → ℕ} {maxRequestBytes : ℕ} {xs : List α}
    {chunks : List (List α)} (h : chunkFrom size maxRequestBytes xs [] 0 = .ok chunks) {x : α}
    (hx : x ∈ xs) : size x ≤ maxRequestBytes := by
  have hflatten : chunks.flatten = xs := flatten_chunkFrom h
  rw [← hflatten] at hx
  obtain ⟨chunk, hchunk, hx⟩ := List.mem_flatten.1 hx
  exact (Runs.le_total hx).trans ((greedy_chunkFrom h rfl (Nat.zero_le _)).of_mem hchunk).2

/-- A payload, with the row that it serialises. -/
abbrev Payload (ρ : Type) := List UInt8 × Row ρ

/-- The bytes of the payloads of a chunk. -/
def payloadBytes (chunk : List (Payload ρ)) : ℕ := (chunk.map (fun p => p.1.length)).sum

namespace StorageWriteSink

variable (sink : StorageWriteSink ρ δ)

/-- A row's payload, or what is raised instead. -/
def payload (row : Row ρ) : Except Exc (List UInt8) := do
  let mapped ← coerceRow sink.rowMapper
    "BigQueryStorageWriteSink row_mapper must return dict[str, object] for append rows. " row
  sink.serializeRow mapped

/-- **The chunks of a batch**, or what is raised before the first of them is appended. -/
def chunks (batch : List (Row ρ)) : Except Exc (List (List (Payload ρ))) := do
  let rows ← batch.mapM (coerceRow sink.rowMapper
    "BigQueryStorageWriteSink row_mapper must return dict[str, object] for append rows. ")
  let payloads ← rows.mapM sink.serializeRow
  chunkSerializedRows sink.maxRequestBytes (payloads.zip batch)

/-- They are the requests of the sink. -/
theorem requests_eq (batch : List (Row ρ)) : (Sink.storageWrite sink).requests batch
    = (sink.chunks batch).map (List.map (List.map Prod.snd)) := by
  have hmap : ∀ x : Except Exc (List (List (Payload ρ))), x.map (List.map (List.map Prod.snd))
      = x >>= fun chunks => pure (chunks.map (List.map Prod.snd)) := by
    intro x
    cases x <;> rfl
  rw [hmap]
  unfold chunks
  simp only [bind_assoc]
  rfl

/-- **What is in the chunks** is what is in the batch, each row with its payload. -/
theorem chunks_spec {batch : List (Row ρ)} {chunks : List (List (Payload ρ))}
    (h : sink.chunks batch = .ok chunks) :
    chunks.flatten.map Prod.snd = batch
      ∧ (∀ p ∈ chunks.flatten, sink.payload p.2 = .ok p.1 ∧ p.1.length ≤ sink.maxRequestBytes)
      ∧ ∀ chunk ∈ chunks, chunk ≠ [] ∧ payloadBytes chunk ≤ sink.maxRequestBytes := by
  obtain ⟨rows, hrows, h⟩ := Fallible.bind_eq_ok_iff.1 h
  obtain ⟨payloads, hpayloads, h⟩ := Fallible.bind_eq_ok_iff.1 h
  have hflatten : chunks.flatten = payloads.zip batch := flatten_chunkFrom h
  have hmade : batch.mapM sink.payload = .ok payloads :=
    Fallible.mapM_bind_eq_ok_iff.2 ⟨rows, hrows, hpayloads⟩
  refine ⟨?_, fun p hp => ⟨?_, ?_⟩, fun chunk hchunk =>
    (greedy_chunkFrom h rfl (Nat.zero_le _)).of_mem hchunk⟩
  · rw [hflatten]
    exact List.map_snd_zip (Fallible.length_of_mapM_eq_ok hmade).ge
  · rw [hflatten] at hp
    exact List.forall₂_zip (Fallible.mapM_eq_ok_iff.1 hmade).flip hp
  · rw [hflatten] at hp
    exact size_le_of_chunkFrom h hp

/-- **A batch is divided into chunks** unless one of its rows has no payload, or one that is too
large. -/
theorem rows_of_chunks {batch : List (Row ρ)} {chunks : List (List (Payload ρ))}
    (h : sink.chunks batch = .ok chunks) {row : Row ρ} (hrow : row ∈ batch) :
    ∃ payload, sink.payload row = .ok payload ∧ payload.length ≤ sink.maxRequestBytes := by
  obtain ⟨hbatch, hpayloads, _⟩ := sink.chunks_spec h
  rw [← hbatch] at hrow
  obtain ⟨p, hp, rfl⟩ := List.mem_map.1 hrow
  exact ⟨p.1, hpayloads p hp⟩

end StorageWriteSink

/-! ## The flush -/

/-- **The state of a sink** with one caller. -/
structure FlushState (ρ : Type) where
  buffer : List (Row ρ)
  /-- the session has its stream, its serializer and its client -/
  connected : Bool := false
  flushCount : ℕ := 0
  appendErrorCount : ℕ := 0
  submittedRowCount : ℕ := 0
  appendedRowCount : ℕ := 0
  lastAppendOffset : Option ℤ := none
  lastAppendSucceeded : Option Bool := none
  lastError : Option String := none
  /-- what opening the session will come to -/
  opening : Reply := .ok
  /-- what the appends will answer, and no offset after those -/
  replies : List (Except Exc (Option ℤ)) := []
  /-- what the requests have brought into the stream, one after the other; one that raises has
  brought nothing -/
  appended : List (List (Payload ρ)) := []

/-- The computations of a sink. -/
abbrev FlushM (ρ β : Type) := EStateM Exc (FlushState ρ) β

/-- A value, or what getting it raised. -/
def ofExcept {β : Type} : Except Exc β → FlushM ρ β
  | .ok b => pure b
  | .error e => throw e

/-- `str` of what is raised. -/
def excText : Exc → String
  | .exception _ message => message
  | .cancelled => ""

namespace FlushState

variable (s : FlushState ρ)

/-- What is noted of an error. -/
def failed (e : Exc) : FlushState ρ :=
  { s with
    appendErrorCount := s.appendErrorCount + 1
    lastAppendSucceeded := some false
    lastError := some (excText e) }

/-- **The append of a chunk has returned**: its rows leave the buffer. -/
def took (chunk : List (Payload ρ)) (offset : Option ℤ) : FlushState ρ :=
  { s with
    buffer := s.buffer.drop chunk.length
    flushCount := s.flushCount + 1
    submittedRowCount := s.submittedRowCount + chunk.length
    appendedRowCount := s.appendedRowCount + chunk.length
    lastAppendOffset := offset
    lastAppendSucceeded := some true
    lastError := none }

end FlushState

/-- `except Exception`, around what a flush does: it notes the error and raises it. -/
def noting (m : FlushM ρ Unit) : FlushM ρ Unit :=
  tryCatch m (fun e => do
    modify (fun s => if e.isException then s.failed e else s)
    throw e)

/-- Opening the session. -/
def openSession : FlushM ρ Unit := do
  match (← get).opening with
  | .ok => modify (fun s => { s with connected := true })
  | .raises e => throw e

def ensureOpen : FlushM ρ Unit := do
  if (← get).connected then pure () else noting openSession

/-- The answer to the next request. -/
def response : FlushM ρ (Option ℤ) := do
  match (← get).replies with
  | [] => pure none
  | reply :: replies => do
    modify (fun s => { s with replies })
    ofExcept reply

/-- **`append_serialized_rows`**: one request with the rows, whose answer is awaited. -/
def appendSerializedRows (serializedRows : List (Payload ρ)) : FlushM ρ (Option ℤ) := do
  let offset ← response
  modify (fun s => { s with appended := s.appended ++ [serializedRows] })
  pure offset

/-- One round of the loop. -/
def appendChunk (chunk : List (Payload ρ)) : FlushM ρ Unit := do
  let offset ← appendSerializedRows chunk
  modify (fun s => s.took chunk offset)

/-- **The loop over the chunks.** -/
def appendChunks : List (List (Payload ρ)) → FlushM ρ Unit
  | [] => pure ()
  | chunk :: chunks => do
    appendChunk chunk
    appendChunks chunks

namespace StorageWriteSink

variable (sink : StorageWriteSink ρ δ)

/-- What is done with the buffer. -/
def appendBuffer : FlushM ρ Unit := do
  let chunks ← ofExcept (sink.chunks (← get).buffer)
  appendChunks chunks

/-- **`flush`.** -/
def flush : FlushM ρ Unit := do
  if (← get).buffer = [] then pure ()
  else do
    ensureOpen
    noting sink.appendBuffer

end StorageWriteSink

/-! ## What a flush does -/

/-- **What has been appended** is what the buffer has lost at its front. -/
def Appends (chunks : List (List (Payload ρ))) (s t : FlushState ρ) : Prop :=
  t.appended = s.appended ++ chunks ∧ chunks.flatten.map Prod.snd ++ t.buffer = s.buffer

theorem appends_nil {s t : FlushState ρ} (happended : t.appended = s.appended)
    (hbuffer : t.buffer = s.buffer) : Appends [] s t :=
  ⟨happended.trans (List.append_nil _).symm, hbuffer⟩

theorem ensures_noting {m : FlushM ρ Unit} {s : FlushState ρ}
    {Q : Except Exc Unit → FlushState ρ → Prop} (h : Ensures m s Q)
    (hfailed : ∀ e t, Q (.error e) t → Q (.error e) (t.failed e)) : Ensures (noting m) s Q := by
  unfold noting
  rw [ensures_tryCatch]
  refine h.mono (fun r t ht => ?_)
  cases r with
  | ok _ => exact ht
  | error e =>
    dsimp only
    rw [ensures_bind, ensures_modify]
    dsimp only
    rw [ensures_throw]
    split_ifs
    · exact hfailed e t ht
    · exact ht

theorem ensures_response (s : FlushState ρ) : Ensures response s
    (fun _ t => t.appended = s.appended ∧ t.buffer = s.buffer) := by
  unfold response
  rw [ensures_bind, ensures_get]
  dsimp only
  cases s.replies with
  | nil => exact (ensures_pure _ _ _).2 ⟨rfl, rfl⟩
  | cons reply replies =>
    dsimp only
    rw [ensures_bind, ensures_modify]
    cases reply with
    | ok offset => exact (ensures_pure _ _ _).2 ⟨rfl, rfl⟩
    | error e => exact (ensures_throw _ _ _).2 ⟨rfl, rfl⟩

/-- **What a request brings into the stream** is the rows that it has been given. -/
theorem ensures_appendSerializedRows (rows : List (Payload ρ)) (s : FlushState ρ) :
    Ensures (appendSerializedRows rows) s (fun r t =>
      match r with
      | .ok _ => t.appended = s.appended ++ [rows] ∧ t.buffer = s.buffer
      | .error _ => t.appended = s.appended ∧ t.buffer = s.buffer) := by
  refine (ensures_response s).bind (fun offset t ht => ?_) (fun _ _ ht => ht)
  rw [ensures_bind, ensures_modify]
  dsimp only
  rw [ensures_pure]
  exact ⟨congrArg (· ++ [rows]) ht.1, ht.2⟩

/-- A chunk is appended and leaves the buffer, or nothing does. -/
theorem ensures_appendChunk (chunk : List (Payload ρ)) (s : FlushState ρ) :
    Ensures (appendChunk chunk) s (fun r t =>
      match r with
      | .ok _ => t.appended = s.appended ++ [chunk] ∧ t.buffer = s.buffer.drop chunk.length
      | .error _ => t.appended = s.appended ∧ t.buffer = s.buffer) := by
  refine (ensures_appendSerializedRows chunk s).bind (fun offset t ht => ?_) (fun _ _ ht => ht)
  rw [ensures_modify]
  exact ⟨ht.1, congrArg (List.drop chunk.length) ht.2⟩

/-- **The loop** stops at the first append that raises. -/
theorem ensures_appendChunks (chunks : List (List (Payload ρ))) (s : FlushState ρ)
    (hbuffer : chunks.flatten.map Prod.snd = s.buffer) :
    Ensures (appendChunks chunks) s (fun r t => ∃ done rest, chunks = done ++ rest
      ∧ Appends done s t ∧ (r = .ok () → rest = [])) := by
  induction chunks generalizing s with
  | nil =>
    unfold appendChunks
    rw [ensures_pure]
    exact ⟨[], [], rfl, appends_nil rfl rfl, fun _ => rfl⟩
  | cons chunk chunks ih =>
    have hraised : ∀ t : FlushState ρ, t.appended = s.appended ∧ t.buffer = s.buffer → ∀ e,
        ∃ done rest, chunk :: chunks = done ++ rest ∧ Appends done s t
          ∧ ((.error e : Except Exc Unit) = .ok () → rest = []) := fun t ht e =>
      ⟨[], chunk :: chunks, rfl, appends_nil ht.1 ht.2, by rintro ⟨⟩⟩
    refine (ensures_appendChunk chunk s).bind (fun _ t ht => ?_) (fun e t ht => hraised t ht e)
    obtain ⟨happended, hrows⟩ := ht
    rw [← hbuffer, List.flatten_cons, List.map_append] at hrows
    refine (ih t ?_).mono (fun r u hu => ?_)
    · rw [hrows, ← List.length_map (f := Prod.snd), List.drop_left]
    · obtain ⟨done, rest, rfl, ⟨hdone, hleft⟩, hok⟩ := hu
      refine ⟨chunk :: done, rest, rfl, ⟨?_, ?_⟩, hok⟩
      · rw [hdone, happended, List.append_assoc, List.singleton_append]
      · rw [List.flatten_cons, List.map_append, List.append_assoc, hleft, hrows, ← hbuffer,
          List.flatten_cons, List.map_append, ← List.length_map (f := Prod.snd), List.drop_left]

namespace StorageWriteSink

variable (sink : StorageWriteSink ρ δ)

/-- The row can be appended. -/
def Accepts (row : Row ρ) : Prop :=
  ∃ payload, sink.payload row = .ok payload ∧ payload.length ≤ sink.maxRequestBytes

/-- What a flush comes to. -/
structure Flushed (s : FlushState ρ) (r : Except Exc Unit) (t : FlushState ρ)
    (chunks : List (List (Payload ρ))) : Prop where
  appends : Appends chunks s t
  sizes : ∀ chunk ∈ chunks, chunk ≠ [] ∧ payloadBytes chunk ≤ sink.maxRequestBytes
  payloads : ∀ p ∈ chunks.flatten, sink.payload p.2 = .ok p.1
  returns : r = .ok () → t.buffer = []
  rejects : (∃ row ∈ s.buffer, ¬ sink.Accepts row) → chunks = [] ∧ r ≠ .ok ()

variable {sink} {s t : FlushState ρ}

/-- Nothing has been appended when it raises. -/
theorem flushed_of_raises (happended : t.appended = s.appended) (hbuffer : t.buffer = s.buffer)
    (e : Exc) : sink.Flushed s (.error e) t [] where
  appends := appends_nil happended hbuffer
  sizes := fun _ h => absurd h List.not_mem_nil
  payloads := fun _ h => absurd h List.not_mem_nil
  returns := by rintro ⟨⟩
  rejects := fun _ => ⟨rfl, by rintro ⟨⟩⟩

theorem ensures_ensureOpen (s : FlushState ρ) : Ensures ensureOpen s
    (fun _ t => t.appended = s.appended ∧ t.buffer = s.buffer) := by
  unfold ensureOpen
  rw [ensures_bind, ensures_get]
  dsimp only
  split_ifs
  · exact (ensures_pure _ _ _).2 ⟨rfl, rfl⟩
  · refine ensures_noting ?_ (fun e t ht => ht)
    unfold openSession
    rw [ensures_bind, ensures_get]
    dsimp only
    cases s.opening with
    | ok => exact (ensures_modify _ _ _).2 ⟨rfl, rfl⟩
    | raises e => exact (ensures_throw _ _ _).2 ⟨rfl, rfl⟩

theorem ensures_appendBuffer (s : FlushState ρ) : Ensures sink.appendBuffer s
    (fun r t => ∃ chunks, sink.Flushed s r t chunks) := by
  unfold appendBuffer
  rw [ensures_bind, ensures_get]
  dsimp only
  cases hchunks : sink.chunks s.buffer with
  | error e => exact ⟨[], flushed_of_raises rfl rfl e⟩
  | ok chunks =>
    obtain ⟨hbuffer, hpayloads, hsizes⟩ := sink.chunks_spec hchunks
    show Ensures (pure chunks >>= appendChunks) s _
    rw [pure_bind]
    refine (ensures_appendChunks chunks s hbuffer).mono (fun r t ht => ?_)
    obtain ⟨done, rest, rfl, happends, hok⟩ := ht
    refine ⟨done, happends, fun chunk hchunk => hsizes chunk (List.mem_append_left _ hchunk),
      fun p hp => (hpayloads p ?_).1, fun hr => ?_, ?_⟩
    · rw [List.flatten_append]
      exact List.mem_append_left _ hp
    · obtain rfl := hok hr
      have hleft := happends.2
      rw [← hbuffer, List.append_nil] at hleft
      exact List.append_right_eq_self.1 hleft
    · rintro ⟨row, hrow, hnot⟩
      exact absurd (sink.rows_of_chunks hchunks hrow) hnot

/-- **A flush**: what it appends is a part of the buffer from its front, in chunks that are small
and not empty, and each row's own payload; the rest stays in the buffer. If it returns, the buffer
is empty. If there is a row that cannot be appended, nothing is, and it raises. -/
theorem flush_spec (sink : StorageWriteSink ρ δ) (s : FlushState ρ) : Ensures sink.flush s
    (fun r t => ∃ chunks, sink.Flushed s r t chunks) := by
  unfold flush
  rw [ensures_bind, ensures_get]
  dsimp only
  split_ifs with hempty
  · rw [ensures_pure]
    refine ⟨[], appends_nil rfl rfl, fun _ h => absurd h List.not_mem_nil,
      fun _ h => absurd h List.not_mem_nil, fun _ => hempty, ?_⟩
    rintro ⟨row, hrow, _⟩
    rw [hempty] at hrow
    exact absurd hrow List.not_mem_nil
  · refine (ensures_ensureOpen s).bind (fun _ t ht => ?_)
      (fun e t ht => ⟨[], flushed_of_raises ht.1 ht.2 e⟩)
    refine ensures_noting ?_ (fun e u hu => ?_)
    swap
    · obtain ⟨chunks, h⟩ := hu
      exact ⟨chunks, h.appends, h.sizes, h.payloads, h.returns, h.rejects⟩
    refine (ensures_appendBuffer t).mono (fun r u hu => ?_)
    obtain ⟨chunks, h⟩ := hu
    refine ⟨chunks, ?_⟩
    have happends : Appends chunks s u :=
      ⟨h.appends.1.trans (congrArg (· ++ chunks) ht.1), h.appends.2.trans ht.2⟩
    exact ⟨happends, h.sizes, h.payloads, h.returns, ht.2 ▸ h.rejects⟩

end StorageWriteSink

end BigQuerySinks

import AgoraPlugins.BigQuery.StorageWriteFlush
import AgoraPlugins.Varint

/-!
# The size of a Storage Write request

The service takes requests of less than 10 MB, and the sink accepts no `max_request_bytes` that is
not below that. It divides the rows so that the payloads of a request have no more bytes than this
bound. But in a request each row also has a tag, of one byte, and its length, of up to four. So a
request is as large as the service takes as long as its rows are not too many, and that depends on
how many there are of which length.
-/

namespace BigQuerySinks

variable {ρ δ α : Type}

/-! ## The bytes of a request -/

/-- `_MAX_REQUEST_LIMIT`. -/
def maxRequestLimit : ℕ := 10000000

/-- **The sink**, with a bound that it accepts. -/
structure BigQueryStorageWriteSink (ρ δ : Type) extends StorageWriteSink ρ δ where
  one_le_maxRequestBytes : 1 ≤ maxRequestBytes
  maxRequestBytes_lt : maxRequestBytes < maxRequestLimit

/-- **A `ProtoRows` message**: the field 1 once for each row, with its length. -/
def encodeProtoRows (serializedRows : List (List UInt8)) : List UInt8 :=
  serializedRows.flatMap (fun row => 0x0A :: (Varint.encode row.length ++ row))

/-- **What is added to the payloads**: two bytes for each row, and one more for each of three bounds
that its length comes to. -/
def addedBytes (size : α → ℕ) (run : List α) : ℕ :=
  2 * run.length + run.countP (fun x => 2 ^ 7 ≤ size x) + run.countP (fun x => 2 ^ 14 ≤ size x)
    + run.countP (fun x => 2 ^ 21 ≤ size x)

theorem addedBytes_map {β : Type} (size : α → ℕ) (f : β → α) (run : List β) :
    addedBytes size (run.map f) = addedBytes (size ∘ f) run := by
  unfold addedBytes
  simp only [List.length_map, List.countP_map]
  rfl

theorem addedBytes_congr {size size' : α → ℕ} {run : List α} (h : ∀ x ∈ run, size x = size' x) :
    addedBytes size run = addedBytes size' run := by
  unfold addedBytes
  have hcount : ∀ bound : ℕ, run.countP (fun x => bound ≤ size x)
      = run.countP (fun x => bound ≤ size' x) := fun bound =>
    List.countP_congr (fun x hx => by rw [h x hx])
  rw [hcount, hcount, hcount]

theorem length_encode_eq (n : ℕ) : (Varint.encode n).length
    = if n < 128 then 1 else 1 + (Varint.encode (n / 128)).length := by
  rw [Varint.encode]
  split_ifs
  · rfl
  · rw [List.length_cons, Nat.add_comm]

/-- The digits of a length. -/
theorem length_encode {n : ℕ} (h : n < 2 ^ 28) : (Varint.encode n).length
    = 1 + (if 2 ^ 7 ≤ n then 1 else 0) + (if 2 ^ 14 ≤ n then 1 else 0)
      + (if 2 ^ 21 ≤ n then 1 else 0) := by
  rw [length_encode_eq n, length_encode_eq (n / 128), length_encode_eq (n / 128 / 128),
    length_encode_eq (n / 128 / 128 / 128)]
  split_ifs <;> omega

theorem length_encodeProtoRows {serializedRows : List (List UInt8)}
    (h : ∀ row ∈ serializedRows, row.length < 2 ^ 28) :
    (encodeProtoRows serializedRows).length
      = Runs.total List.length serializedRows + addedBytes List.length serializedRows := by
  induction serializedRows with
  | nil => rfl
  | cons row rows ih =>
    obtain ⟨hrow, hrows⟩ := List.forall_mem_cons.1 h
    have hcons : (encodeProtoRows (row :: rows)).length
        = 1 + (Varint.encode row.length).length + row.length + (encodeProtoRows rows).length := by
      show ((0x0A :: (Varint.encode row.length ++ row)) ++ encodeProtoRows rows).length = _
      rw [List.length_append, List.length_cons, List.length_append]
      omega
    rw [hcons, ih hrows, length_encode hrow, Runs.total_cons]
    unfold addedBytes
    simp only [List.length_cons, List.countP_cons, decide_eq_true_eq]
    omega

/-! ## The rows of the chunks -/

namespace StorageWriteSink

variable (sink : StorageWriteSink ρ δ)

/-- The bytes of a row's payload. -/
def rowBytes (row : Row ρ) : ℕ :=
  match sink.payload row with
  | .ok payload => payload.length
  | .error _ => 0

/-- A batch of which each row can be appended is divided into chunks. -/
theorem exists_chunks {batch : List (Row ρ)} (h : ∀ row ∈ batch, sink.Accepts row) :
    ∃ chunks, sink.chunks batch = .ok chunks := by
  obtain ⟨payloads, hmade⟩ := Fallible.exists_mapM_eq_ok
    (fun row hrow => (h row hrow).imp (fun _ => And.left))
  obtain ⟨rows, hrows, hpayloads⟩ := Fallible.mapM_bind_eq_ok_iff.1 hmade
  have hsizes : ∀ p ∈ payloads.zip batch, p.1.length ≤ sink.maxRequestBytes := fun p hp => by
    obtain ⟨payload, hpayload, hle⟩ := h p.2 (List.of_mem_zip hp).2
    have hp' := List.forall₂_zip (Fallible.mapM_eq_ok_iff.1 hmade).flip hp
    obtain rfl := Except.ok.inj (hp'.symm.trans hpayload)
    exact hle
  obtain ⟨division, hdivision⟩ := exists_chunkFrom hsizes [] 0
  exact ⟨division, Fallible.bind_eq_ok_iff.2 ⟨rows, hrows,
    Fallible.bind_eq_ok_iff.2 ⟨payloads, hpayloads, hdivision⟩⟩⟩

variable {sink} {batch : List (Row ρ)} {chunks : List (List (Payload ρ))}

theorem rowBytes_of_mem (h : sink.chunks batch = .ok chunks) {p : Payload ρ}
    (hp : p ∈ chunks.flatten) : p.1.length = sink.rowBytes p.2 := by
  unfold rowBytes
  rw [((sink.chunks_spec h).2.1 p hp).1]

/-- **The rows of the chunks** are the longest runs of the batch. -/
theorem greedy_chunks (h : sink.chunks batch = .ok chunks) :
    Runs.Greedy sink.rowBytes sink.maxRequestBytes (chunks.map (List.map Prod.snd)) := by
  have hgreedy : Runs.Greedy (fun p : Payload ρ => p.1.length) sink.maxRequestBytes chunks := by
    obtain ⟨_, _, h⟩ := Fallible.bind_eq_ok_iff.1 h
    obtain ⟨_, _, h⟩ := Fallible.bind_eq_ok_iff.1 h
    exact greedy_chunkFrom h rfl (Nat.zero_le _)
  exact Runs.greedy_map.2 (hgreedy.congr (fun p hp => rowBytes_of_mem h hp))

/-- **The bytes of a request**, from the rows of its chunk. -/
theorem length_request (h : sink.chunks batch = .ok chunks)
    (hlimit : sink.maxRequestBytes < 2 ^ 28) {chunk : List (Payload ρ)} (hchunk : chunk ∈ chunks) :
    (encodeProtoRows (chunk.map Prod.fst)).length
      = Runs.total sink.rowBytes (chunk.map Prod.snd)
        + addedBytes sink.rowBytes (chunk.map Prod.snd) := by
  have hmem : ∀ p ∈ chunk, p ∈ chunks.flatten := fun p hp => List.mem_flatten.2 ⟨chunk, hchunk, hp⟩
  have hbytes : ∀ p ∈ chunk, (List.length ∘ Prod.fst) p = (sink.rowBytes ∘ Prod.snd) p :=
    fun p hp => rowBytes_of_mem h (hmem p hp)
  have hsmall : ∀ row ∈ chunk.map Prod.fst, row.length < 2 ^ 28 := fun row hrow => by
    obtain ⟨p, hp, rfl⟩ := List.mem_map.1 hrow
    exact ((sink.chunks_spec h).2.1 p (hmem p hp)).2.trans_lt hlimit
  rw [length_encodeProtoRows hsmall, Runs.total_map, Runs.total_map, addedBytes_map,
    addedBytes_map, Runs.total_congr hbytes, addedBytes_congr hbytes]

end StorageWriteSink

namespace BigQueryStorageWriteSink

variable (sink : BigQueryStorageWriteSink ρ δ)

/-- **The requests for a buffer** are small enough for the service. -/
def RequestsWithinLimit (buffer : List (Row ρ)) : Prop :=
  ∀ chunks, sink.chunks buffer = .ok chunks →
    ∀ chunk ∈ chunks, (encodeProtoRows (chunk.map Prod.fst)).length < maxRequestLimit

/-- **When they are**: if all rows can be appended, and the buffer is divided into the longest runs
of consecutive rows with no more than `max_request_bytes`, each run leaves room for two bytes a row,
and more for its longer rows. -/
theorem requestsWithinLimit_iff (buffer : List (Row ρ)) : sink.RequestsWithinLimit buffer ↔
    ((∀ row ∈ buffer, sink.Accepts row) → ∀ runs : List (List (Row ρ)), runs.flatten = buffer →
      Runs.Greedy sink.rowBytes sink.maxRequestBytes runs → ∀ run ∈ runs,
        addedBytes sink.rowBytes run < maxRequestLimit - Runs.total sink.rowBytes run) := by
  have hlimit : sink.maxRequestBytes < 2 ^ 28 := sink.maxRequestBytes_lt.trans (by decide)
  constructor
  · intro h haccepts runs hflatten hgreedy run hrun
    obtain ⟨chunks, hchunks⟩ := sink.exists_chunks haccepts
    have hruns : runs = chunks.map (List.map Prod.snd) := by
      refine hgreedy.unique (StorageWriteSink.greedy_chunks hchunks) ?_
      rw [hflatten, ← List.map_flatten, (sink.chunks_spec hchunks).1]
    rw [hruns] at hrun
    obtain ⟨chunk, hchunk, rfl⟩ := List.mem_map.1 hrun
    have hlt := h chunks hchunks chunk hchunk
    rw [StorageWriteSink.length_request hchunks hlimit hchunk] at hlt
    omega
  · intro h chunks hchunks chunk hchunk
    rw [StorageWriteSink.length_request hchunks hlimit hchunk]
    have hflatten : (chunks.map (List.map Prod.snd)).flatten = buffer := by
      rw [← List.map_flatten, (sink.chunks_spec hchunks).1]
    have hlt := h (fun row hrow => sink.rows_of_chunks hchunks hrow) _ hflatten
      (StorageWriteSink.greedy_chunks hchunks) _ (List.mem_map_of_mem hchunk)
    omega

theorem addedBytes_le (size : α → ℕ) (run : List α) : addedBytes size run ≤ 5 * run.length := by
  have hcount : ∀ p : α → Bool, run.countP p ≤ run.length := fun _ => List.countP_le_length
  have h₁ := hcount (fun x => 2 ^ 7 ≤ size x)
  have h₂ := hcount (fun x => 2 ^ 14 ≤ size x)
  have h₃ := hcount (fun x => 2 ^ 21 ≤ size x)
  unfold addedBytes
  omega

/-- A bound on the rows is enough: with the default `max_request_bytes` it is just below four
hundred thousand. -/
theorem requestsWithinLimit_of_length {buffer : List (Row ρ)}
    (h : sink.maxRequestBytes + 5 * buffer.length < maxRequestLimit) :
    sink.RequestsWithinLimit buffer := by
  intro chunks hchunks chunk hchunk
  have hmem : chunk.map Prod.snd ∈ chunks.map (List.map Prod.snd) := List.mem_map_of_mem hchunk
  have htotal := ((StorageWriteSink.greedy_chunks hchunks).of_mem hmem).2
  have hflatten : (chunks.map (List.map Prod.snd)).flatten = buffer := by
    rw [← List.map_flatten, (sink.chunks_spec hchunks).1]
  have hlength := (List.sublist_flatten_of_mem hmem).length_le
  rw [hflatten] at hlength
  have hadded := addedBytes_le sink.rowBytes (chunk.map Prod.snd)
  rw [StorageWriteSink.length_request hchunks (sink.maxRequestBytes_lt.trans (by decide)) hchunk]
  omega

end BigQueryStorageWriteSink

/-! ## Very many small rows -/

theorem defaultBatchSize_pos : 0 < 500 := by decide

/-- A sink with the bound that it has by default; its records are their own payloads. -/
def payloadSink : BigQueryStorageWriteSink (List UInt8) (List UInt8) where
  rowMapper := fun record => .ok (.dict record)
  serializeRow := .ok
  batchSize := 500
  batchSize_pos := defaultBatchSize_pos
  maxRequestBytes := 8000000
  one_le_maxRequestBytes := by decide
  maxRequestBytes_lt := by decide

/-- Some rows of two bytes. -/
def smallRows (n : ℕ) : List (Row (List UInt8)) := (List.replicate n [8, 1]).zipIdx

theorem total_smallRows (n : ℕ) : Runs.total payloadSink.rowBytes (smallRows n) = n * 2 := by
  have hbytes : Runs.total payloadSink.rowBytes (smallRows n)
      = Runs.total List.length ((smallRows n).map Prod.fst) := (Runs.total_map _ _).symm
  rw [hbytes, smallRows, List.zipIdx_map_fst, Runs.total_replicate]
  rfl

/-- **They make one request**, as long as their payloads fit, and it has four bytes for each. -/
theorem request_smallRows {n : ℕ} (hpos : 0 < n) (hle : n * 2 ≤ 8000000) :
    ∃ chunks, payloadSink.chunks (smallRows n) = .ok chunks ∧
      ∃ chunk ∈ chunks, 4 * n ≤ (encodeProtoRows (chunk.map Prod.fst)).length := by
  have hlength : (smallRows n).length = n := by
    rw [smallRows, List.length_zipIdx, List.length_replicate]
  have haccepts : ∀ row ∈ smallRows n, payloadSink.Accepts row := fun row hrow => by
    have hbytes : payloadSink.rowBytes row ≤ Runs.total payloadSink.rowBytes (smallRows n) :=
      Runs.le_total hrow
    rw [total_smallRows] at hbytes
    exact ⟨row.1, rfl, hbytes.trans hle⟩
  obtain ⟨chunks, hchunks⟩ := payloadSink.exists_chunks haccepts
  have hone : Runs.Greedy payloadSink.rowBytes payloadSink.maxRequestBytes [smallRows n] := by
    refine ⟨fun hnil => ?_, ?_, fun x hx => absurd hx (Option.not_mem_none x), trivial⟩
    · rw [hnil, List.length_nil] at hlength
      omega
    · rw [total_smallRows]
      exact hle
  have hmap : chunks.map (List.map Prod.snd) = [smallRows n] := by
    refine (StorageWriteSink.greedy_chunks hchunks).unique hone ?_
    rw [← List.map_flatten, (payloadSink.chunks_spec hchunks).1, List.flatten_singleton]
  have hmem : smallRows n ∈ chunks.map (List.map Prod.snd) := by
    rw [hmap]
    exact List.mem_singleton_self _
  obtain ⟨chunk, hchunk, hrows⟩ := List.mem_map.1 hmem
  refine ⟨chunks, hchunks, chunk, hchunk, ?_⟩
  rw [StorageWriteSink.length_request hchunks (by decide) hchunk, hrows, total_smallRows]
  unfold addedBytes
  omega

/-- Three million rows of two bytes make one request of twelve million bytes. -/
theorem not_requestsWithinLimit_smallRows :
    ¬ payloadSink.RequestsWithinLimit (smallRows 3000000) := by
  intro h
  obtain ⟨chunks, hchunks, chunk, hchunk, hle⟩ := @request_smallRows 3000000 (by decide) (by decide)
  have hlt := h chunks hchunks chunk hchunk
  rw [maxRequestLimit] at hlt
  omega

end BigQuerySinks

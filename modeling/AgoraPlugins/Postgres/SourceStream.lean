import AgoraPlugins.Reply

/-!
# A read of the Postgres source

One call of `stream` runs the query, fetches the result in batches and emits what the mapper
makes of each row. Everything it awaits may fail: connecting, the settings of the transaction,
the query, the check of a replica's lag, each fetch, closing the cursor and the connection. A
read that fails is attempted again, with a new query, if the retry policy says so and no row
has been seen.

The result of another attempt need not be the same, so a row seen before it would be lost or
repeated. The law is that nothing of the kind happens, whatever fails: the records emitted are
those of the first rows of one result, each row once (`ensures_stream`).
-/

open Effect

/-- What becomes of a row that cannot be mapped. -/
inductive SourceRecordFailurePolicy where
  | failClosed
  | logAndContinue
  deriving DecidableEq

/-- **A source**, and what it meets: the result of each attempt's query; what the mapper makes
of a row by its number, when it is called for it; the retry policy, by the error and the
number of the attempt. -/
structure PostgresSource (ρ κ τ : Type) where
  batchSize : ℕ
  batchSize_pos : 0 < batchSize
  results : ℕ → List ρ
  extractCheckpointCursor : ρ → Except Exc (Option κ)
  mapRow : ℕ → ρ → Except Exc (Option τ)
  onRecordError : SourceRecordFailurePolicy := .failClosed
  shouldRetry : Exc → ℕ → Bool
  /-- whether it waits before the next attempt -/
  backsOff : ℕ → Bool

/-- The progress of a read, the records emitted, and the replies it will meet. -/
structure PostgresSourceState (κ τ : Type) where
  rowsSeen : ℕ := 0
  lastCheckpointCursor : Option κ := none
  emitted : List τ := []
  /-- how many rows had been seen at each query -/
  rowsSeenAtQuery : List ℕ := []
  script : List Reply := []

/-- The computations of a source. -/
abbrev PostgresSourceM (κ τ β : Type) := EStateM Exc (PostgresSourceState κ τ) β

namespace PostgresSource

variable {ρ κ τ β : Type}

/-- An await point. -/
def await : PostgresSourceM κ τ PUnit :=
  zoom PostgresSourceState.script (fun s script => { s with script }) nextReply

/-- A value, or what getting it raised. -/
def ofExcept : Except Exc β → PostgresSourceM κ τ β
  | .ok b => pure b
  | .error e => throw e

variable (cfg : PostgresSource ρ κ τ)

/-! ## Rows -/

def sourceRecordError : Exc := .exception "SourceRecordError" ""

/-- A row is seen, and mapped. -/
def readRow (row : ρ) : PostgresSourceM κ τ (Option τ) := do
  modify (fun s => { s with rowsSeen := s.rowsSeen + 1 })
  let s ← get
  let cursor ← ofExcept (cfg.extractCheckpointCursor row)
  let record ← ofExcept (cfg.mapRow s.rowsSeen row)
  modify (fun s => { s with lastCheckpointCursor := cursor })
  pure record

/-- `except Exception`, around a row. -/
def onRowError (e : Exc) : PostgresSourceM κ τ (Option τ) :=
  if e.isException then
    match cfg.onRecordError with
    | .logAndContinue => pure none
    | .failClosed => throw sourceRecordError
  else throw e

/-- `yield`. -/
def emit : Option τ → PostgresSourceM κ τ PUnit
  | none => pure ⟨⟩
  | some record => do
    modify (fun s => { s with emitted := s.emitted ++ [record] })
    await

/-- **`_emit_rows`.** -/
def emitRows : List ρ → PostgresSourceM κ τ PUnit
  | [] => pure ⟨⟩
  | row :: rows => do
    let record ← tryCatch (cfg.readRow row) cfg.onRowError
    emit record
    emitRows rows

/-! ## Attempts -/

/-- The loop over the batches, with what is left of the result. -/
def fetchLoop (rows : List ρ) : PostgresSourceM κ τ PUnit := do
  await -- the replica's lag
  await -- the fetch
  if _h : rows = [] then pure ⟨⟩
  else do
    cfg.emitRows (rows.take cfg.batchSize)
    fetchLoop (rows.drop cfg.batchSize)
termination_by rows.length
decreasing_by
  have := cfg.batchSize_pos
  have := List.length_pos_of_ne_nil _h
  rw [List.length_drop]
  omega

/-- **`stream_attempt`.** -/
def streamAttempt (attempt : ℕ) : PostgresSourceM κ τ PUnit := do
  modify (fun s => { s with rowsSeenAtQuery := s.rowsSeenAtQuery ++ [s.rowsSeen] })
  await -- the connection
  ensuring
    (do
      await -- the settings of the transaction
      ensuring
        (do
          await -- the query
          cfg.fetchLoop (cfg.results attempt))
        await)
    await

/-- **`_should_retry_read`.** -/
def shouldRetryRead (e : Exc) (attempt : ℕ) (s : PostgresSourceState κ τ) : Bool :=
  if 0 < s.rowsSeen ∨ s.lastCheckpointCursor.isSome then false else cfg.shouldRetry e attempt

/-- `except Exception`, around an attempt: whether there is another one. -/
def onAttemptError (attempt : ℕ) (e : Exc) : PostgresSourceM κ τ Bool := do
  let s ← get
  if e.isException && cfg.shouldRetryRead e attempt s then
    if cfg.backsOff attempt then do
      await
      pure true
    else pure true
  else throw e

/-- The loop over the attempts, as far as the fuel goes; whether it has come to its end. -/
def readLoop : ℕ → ℕ → PostgresSourceM κ τ Bool
  | 0, _ => pure false
  | fuel + 1, attempt => do
    let again ← tryCatch
      (do
        cfg.streamAttempt attempt
        pure false)
      (cfg.onAttemptError attempt)
    if again then readLoop fuel (attempt + 1) else pure true

/-- `_reset_progress`. -/
def resetProgress (s : PostgresSourceState κ τ) : PostgresSourceState κ τ :=
  { s with rowsSeen := 0, lastCheckpointCursor := none }

/-- **`stream`.** -/
def stream (fuel : ℕ) : PostgresSourceM κ τ Bool := do
  modify resetProgress
  cfg.readLoop fuel 1

/-! ## What is made of a row -/

/-- What reading a row with a number gives. -/
def outcome (number : ℕ) (row : ρ) : Except Exc (Option τ) := do
  let _ ← cfg.extractCheckpointCursor row
  cfg.mapRow number row

/-- The record of a row, if there is one. -/
def image (number : ℕ) (row : ρ) : Option τ :=
  match cfg.outcome number row with
  | .ok record => record
  | .error _ => none

/-- The records of some rows that come after a number of others. -/
def images : ℕ → List ρ → List τ
  | _, [] => []
  | seen, row :: rows => (cfg.image (seen + 1) row).toList ++ images (seen + 1) rows

/-- A row is passed: it is mapped, or its failure is dropped. -/
def Passed (number : ℕ) (row : ρ) : Prop :=
  match cfg.outcome number row with
  | .ok _ => True
  | .error e => e.isException = true ∧ cfg.onRecordError = .logAndContinue

/-- The rows are passed, all of them. -/
def PassedEach : ℕ → List ρ → Prop
  | _, [] => True
  | seen, row :: rows => cfg.Passed (seen + 1) row ∧ PassedEach (seen + 1) rows

section Images

variable {cfg}

theorem images_append (seen : ℕ) (rows rows' : List ρ) :
    cfg.images seen (rows ++ rows')
      = cfg.images seen rows ++ cfg.images (seen + rows.length) rows' := by
  induction rows generalizing seen with
  | nil => rfl
  | cons row rows ih =>
    rw [List.cons_append, images, images, ih, List.append_assoc, List.length_cons,
      Nat.add_right_comm, Nat.add_assoc]

theorem passedEach_append {seen : ℕ} {rows rows' : List ρ} :
    cfg.PassedEach seen (rows ++ rows')
      ↔ cfg.PassedEach seen rows ∧ cfg.PassedEach (seen + rows.length) rows' := by
  induction rows generalizing seen with
  | nil => exact (true_and _).symm.to_iff
  | cons row rows ih =>
    rw [List.cons_append, PassedEach, PassedEach, ih, and_assoc, List.length_cons,
      Nat.add_right_comm, Nat.add_assoc]

end Images

/-! ## What a computation reads -/

/-- **Some rows are read, in order**: the records of the first ones of them are emitted, and
those are passed. Rows that are not passed have been seen at least. If the computation returns
it has read them all. -/
def Reads (rows : List ρ) (m : PostgresSourceM κ τ β) : Prop :=
  ∀ s, Ensures m s (fun r t => ∃ p, p <+: rows
    ∧ t.emitted = s.emitted ++ cfg.images s.rowsSeen p ∧ cfg.PassedEach s.rowsSeen p
    ∧ s.rowsSeen + p.length ≤ t.rowsSeen ∧ t.rowsSeenAtQuery = s.rowsSeenAtQuery
    ∧ ∀ b, r = .ok b → p = rows ∧ t.rowsSeen = s.rowsSeen + rows.length)

section Reads

variable {cfg} {rows rows' : List ρ}

theorem reads_pure (b : β) : cfg.Reads [] (pure b : PostgresSourceM κ τ β) :=
  fun _ => ⟨[], List.prefix_rfl, (List.append_nil _).symm, trivial, Nat.le_refl _, rfl,
    fun _ _ => ⟨rfl, rfl⟩⟩

omit cfg in
theorem ensures_await {s : PostgresSourceState κ τ}
    {Q : Except Exc PUnit → PostgresSourceState κ τ → Prop}
    (hok : ∀ script, Q (.ok ⟨⟩) { s with script })
    (herror : ∀ e script, Q (.error e) { s with script }) : Ensures await s Q := by
  unfold await
  rw [ensures_zoom]
  exact ensures_nextReply hok herror

theorem reads_await : cfg.Reads [] (await : PostgresSourceM κ τ PUnit) :=
  fun _ => ensures_await
    (fun _ => ⟨[], List.prefix_rfl, (List.append_nil _).symm, trivial, Nat.le_refl _, rfl,
      fun _ _ => ⟨rfl, rfl⟩⟩)
    (fun _ _ => ⟨[], List.prefix_rfl, (List.append_nil _).symm, trivial, Nat.le_refl _, rfl,
      nofun⟩)

/-- **One after the other.** -/
theorem Reads.bind {γ : Type} {m : PostgresSourceM κ τ β} {f : β → PostgresSourceM κ τ γ}
    (hm : cfg.Reads rows m) (hf : ∀ b, cfg.Reads rows' (f b)) :
    cfg.Reads (rows ++ rows') (m >>= f) := by
  intro s
  refine (hm s).bind (fun b t ht => ?_) (fun e t ht => ?_)
  · obtain ⟨p, _, hemitted, hpassed, _, hquery, hok⟩ := ht
    obtain ⟨rfl, hseen⟩ := hok b rfl
    refine (hf b t).mono (fun r u hu => ?_)
    obtain ⟨q, hq, hemitted', hpassed', hle, hquery', hok'⟩ := hu
    rw [hseen] at hemitted' hpassed' hle hok'
    refine ⟨p ++ q, List.prefix_append_right_inj p |>.2 hq, ?_,
      passedEach_append.2 ⟨hpassed, hpassed'⟩, ?_, hquery'.trans hquery, fun c hc => ?_⟩
    · rw [hemitted', hemitted, images_append, List.append_assoc]
    · rw [List.length_append]
      omega
    · obtain ⟨rfl, hseen'⟩ := hok' c hc
      refine ⟨rfl, ?_⟩
      rw [hseen', List.length_append, Nat.add_assoc]
  · obtain ⟨p, hp, hemitted, hpassed, hle, hquery, _⟩ := ht
    exact ⟨p, hp.trans (List.prefix_append _ _), hemitted, hpassed, hle, hquery, nofun⟩

/-- What reads nothing comes first. -/
theorem Reads.after {γ : Type} {m : PostgresSourceM κ τ β} {f : β → PostgresSourceM κ τ γ}
    (hm : cfg.Reads [] m) (hf : ∀ b, cfg.Reads rows (f b)) : cfg.Reads rows (m >>= f) :=
  hm.bind hf

/-- **Closing** what was opened reads nothing, and may raise. -/
theorem Reads.ensuring {m : PostgresSourceM κ τ β} (hm : cfg.Reads rows m) :
    cfg.Reads rows (ensuring m await) := by
  intro s
  rw [ensures_ensuring]
  refine (hm s).mono (fun r t ht => ensures_await (fun script => ht) (fun e script => ?_))
  obtain ⟨p, hp, hemitted, hpassed, hle, hquery, _⟩ := ht
  exact ⟨p, hp, hemitted, hpassed, hle, hquery, nofun⟩

/-- **A row is seen**, and if it is passed there is its record, or none. -/
theorem ensures_readRow (row : ρ) (s : PostgresSourceState κ τ) :
    Ensures (tryCatch (cfg.readRow row) cfg.onRowError) s (fun r t =>
      t.emitted = s.emitted ∧ t.rowsSeen = s.rowsSeen + 1
        ∧ t.rowsSeenAtQuery = s.rowsSeenAtQuery
        ∧ ∀ record, r = .ok record →
          record = cfg.image (s.rowsSeen + 1) row ∧ cfg.Passed (s.rowsSeen + 1) row) := by
  -- a failure is dropped or goes on, and leaves the state as it is
  have hfailed : ∀ e, cfg.outcome (s.rowsSeen + 1) row = .error e →
      Ensures (cfg.onRowError e) { s with rowsSeen := s.rowsSeen + 1 } (fun r t =>
        t.emitted = s.emitted ∧ t.rowsSeen = s.rowsSeen + 1
          ∧ t.rowsSeenAtQuery = s.rowsSeenAtQuery
          ∧ ∀ record, r = .ok record →
            record = cfg.image (s.rowsSeen + 1) row ∧ cfg.Passed (s.rowsSeen + 1) row) := by
    intro e he
    unfold onRowError
    split
    · rename_i hexception
      cases hpolicy : cfg.onRecordError with
      | failClosed => exact ⟨rfl, rfl, rfl, nofun⟩
      | logAndContinue =>
        refine ⟨rfl, rfl, rfl, fun record hrecord => ?_⟩
        cases hrecord
        unfold image Passed
        rw [he]
        exact ⟨rfl, hexception, hpolicy⟩
    · exact ⟨rfl, rfl, rfl, nofun⟩
  rw [ensures_tryCatch]
  unfold readRow
  rw [ensures_bind, ensures_modify]
  dsimp only
  rw [ensures_bind, ensures_get]
  dsimp only
  rw [ensures_bind]
  cases hcursor : cfg.extractCheckpointCursor row with
  | error e =>
    refine hfailed e ?_
    rw [outcome, hcursor]
    rfl
  | ok cursor =>
    show Ensures (pure cursor) _ _
    rw [ensures_pure]
    dsimp only
    rw [ensures_bind]
    have houtcome : cfg.outcome (s.rowsSeen + 1) row = cfg.mapRow (s.rowsSeen + 1) row := by
      rw [outcome, hcursor]
      rfl
    cases hrecord : cfg.mapRow (s.rowsSeen + 1) row with
    | error e => exact hfailed e (houtcome.trans hrecord)
    | ok record =>
      show Ensures (pure record) _ _
      rw [ensures_pure]
      dsimp only
      rw [ensures_bind, ensures_modify]
      dsimp only
      rw [ensures_pure]
      refine ⟨rfl, rfl, rfl, fun record' hrecord' => ?_⟩
      cases hrecord'
      unfold image Passed
      rw [houtcome, hrecord]
      exact ⟨rfl, trivial⟩

/-- **One row.** -/
theorem reads_row (row : ρ) :
    cfg.Reads [row] (tryCatch (cfg.readRow row) cfg.onRowError >>= emit) := by
  intro s
  refine (ensures_readRow row s).bind (fun record t ht => ?_) (fun e t ht => ?_)
  · obtain ⟨hemitted, hseen, hquery, hok⟩ := ht
    obtain ⟨rfl, hpassed⟩ := hok record rfl
    have himages : cfg.images s.rowsSeen [row] = (cfg.image (s.rowsSeen + 1) row).toList :=
      List.append_nil _
    cases himage : cfg.image (s.rowsSeen + 1) row with
    | none =>
      refine ⟨[row], List.prefix_rfl, ?_, ⟨hpassed, trivial⟩, Nat.le_of_eq hseen.symm, hquery,
        fun _ _ => ⟨rfl, hseen⟩⟩
      rw [himages, himage, hemitted]
      exact (List.append_nil _).symm
    | some record =>
      unfold emit
      rw [ensures_bind, ensures_modify]
      have hemits : t.emitted ++ [record] = s.emitted ++ cfg.images s.rowsSeen [row] := by
        rw [himages, himage, hemitted]
        rfl
      exact ensures_await
        (fun _ => ⟨[row], List.prefix_rfl, hemits, ⟨hpassed, trivial⟩,
          Nat.le_of_eq hseen.symm, hquery, fun _ _ => ⟨rfl, hseen⟩⟩)
        (fun _ _ => ⟨[row], List.prefix_rfl, hemits, ⟨hpassed, trivial⟩,
          Nat.le_of_eq hseen.symm, hquery, nofun⟩)
  · obtain ⟨hemitted, hseen, hquery, _⟩ := ht
    refine ⟨[], List.nil_prefix, ?_, trivial, ?_, hquery, nofun⟩
    · rw [hemitted]
      exact (List.append_nil _).symm
    · rw [hseen]
      exact Nat.le_succ _

theorem reads_emitRows (rows : List ρ) : cfg.Reads rows (cfg.emitRows rows) := by
  induction rows with
  | nil => exact reads_pure _
  | cons row rows ih =>
    have hrow : cfg.Reads [row] (tryCatch (cfg.readRow row) cfg.onRowError >>= emit) :=
      reads_row row
    have h := hrow.bind (fun _ => ih)
    rw [bind_assoc] at h
    exact h

/-- **The batches** are those of the result, in order. -/
theorem reads_fetchLoop (rows : List ρ) : cfg.Reads rows (cfg.fetchLoop rows) := by
  induction rows using fetchLoop.induct cfg with
  | case1 rows ih =>
    rw [fetchLoop]
    refine .after reads_await (fun _ => .after reads_await (fun _ => ?_))
    split
    · rename_i hrows
      rw [hrows]
      exact reads_pure _
    · rename_i hrows
      have hbatch : cfg.Reads (rows.take cfg.batchSize) (cfg.emitRows (rows.take cfg.batchSize)) :=
        reads_emitRows _
      have h := hbatch.bind (fun _ => ih hrows)
      rwa [List.take_append_drop] at h

/-- **An attempt** reads the result of its query. -/
theorem ensures_streamAttempt (attempt : ℕ) (s : PostgresSourceState κ τ) :
    Ensures (cfg.streamAttempt attempt) s (fun r t => ∃ p, p <+: cfg.results attempt
      ∧ t.emitted = s.emitted ++ cfg.images s.rowsSeen p ∧ cfg.PassedEach s.rowsSeen p
      ∧ s.rowsSeen + p.length ≤ t.rowsSeen
      ∧ t.rowsSeenAtQuery = s.rowsSeenAtQuery ++ [s.rowsSeen]
      ∧ ∀ b, r = .ok b → p = cfg.results attempt
        ∧ t.rowsSeen = s.rowsSeen + (cfg.results attempt).length) := by
  unfold streamAttempt
  rw [ensures_bind, ensures_modify]
  have hreads : cfg.Reads (cfg.results attempt) (do
      await
      Effect.ensuring
        (do
          await
          Effect.ensuring
            (do
              await
              cfg.fetchLoop (cfg.results attempt))
            await)
        await : PostgresSourceM κ τ PUnit) :=
    .after reads_await (fun _ => Reads.ensuring (.after reads_await (fun _ =>
      Reads.ensuring (.after reads_await (fun _ => reads_fetchLoop _)))))
  exact hreads _

end Reads

/-! ## A read -/

/-- **What a call of `stream` has done** by the time it stops: it has emitted the records of
the first rows of one result, and every query was made before any row was seen. -/
def Delivers (s t : PostgresSourceState κ τ) (r : Except Exc Bool) : Prop :=
  (∃ attempt p, p <+: cfg.results attempt ∧ t.emitted = s.emitted ++ cfg.images 0 p
      ∧ cfg.PassedEach 0 p ∧ (r = .ok true → p = cfg.results attempt))
    ∧ ∃ queries, t.rowsSeenAtQuery = s.rowsSeenAtQuery ++ queries ∧ ∀ n ∈ queries, n = 0

variable {cfg}

/-- **Another attempt** is made only when no row has been seen, so nothing has been emitted. -/
theorem ensures_attempt (attempt : ℕ) {s : PostgresSourceState κ τ} (hs : s.rowsSeen = 0) :
    Ensures
      (tryCatch
        (do
          cfg.streamAttempt attempt
          pure false)
        (cfg.onAttemptError attempt)) s (fun r t =>
      t.rowsSeenAtQuery = s.rowsSeenAtQuery ++ [0]
        ∧ match r with
          | .ok true => t.rowsSeen = 0 ∧ t.emitted = s.emitted
          | .ok false => t.emitted = s.emitted ++ cfg.images 0 (cfg.results attempt)
            ∧ cfg.PassedEach 0 (cfg.results attempt)
          | .error _ => ∃ p, p <+: cfg.results attempt
            ∧ t.emitted = s.emitted ++ cfg.images 0 p ∧ cfg.PassedEach 0 p) := by
  rw [ensures_tryCatch, ensures_bind]
  refine (ensures_streamAttempt attempt s).mono (fun r t ht => ?_)
  rw [hs] at ht
  obtain ⟨p, hp, hemitted, hpassed, hle, hquery, hok⟩ := ht
  cases r with
  | ok _ =>
    obtain ⟨rfl, _⟩ := hok _ rfl
    exact ⟨hquery, hemitted, hpassed⟩
  | error e =>
    dsimp only
    unfold onAttemptError
    rw [ensures_bind, ensures_get]
    dsimp only
    split
    · rename_i hretry
      -- no row has been seen, so the rows read are none
      have hseen : t.rowsSeen = 0 := by
        rw [Bool.and_eq_true, shouldRetryRead] at hretry
        by_contra hne
        rw [if_pos (.inl (Nat.pos_of_ne_zero hne))] at hretry
        exact Bool.false_ne_true hretry.2
      have hnil : p = [] := List.eq_nil_of_length_eq_zero (by omega)
      rw [hnil, images, List.append_nil] at hemitted
      split
      · rw [ensures_bind]
        exact ensures_await (fun _ => ⟨hquery, hseen, hemitted⟩)
          (fun _ _ => ⟨hquery, [], List.nil_prefix, hemitted.trans (List.append_nil _).symm,
            trivial⟩)
      · exact ⟨hquery, hseen, hemitted⟩
    · exact ⟨hquery, p, hp, hemitted, hpassed⟩

/-- The loop, from a state in which no row has been seen. -/
theorem ensures_readLoop (fuel attempt : ℕ) {s : PostgresSourceState κ τ} (hs : s.rowsSeen = 0) :
    Ensures (cfg.readLoop fuel attempt) s (fun r t => cfg.Delivers s t r) := by
  induction fuel generalizing attempt s with
  | zero =>
    exact ⟨⟨attempt, [], List.nil_prefix, (List.append_nil _).symm, trivial, nofun⟩,
      [], (List.append_nil _).symm, nofun⟩
  | succ fuel ih =>
    have hone : ∀ n ∈ [0], n = 0 := fun n hn => List.mem_singleton.1 hn
    rw [readLoop]
    refine (ensures_attempt attempt hs).bind (fun again t ht => ?_) (fun e t ht => ?_)
    · cases again with
      | false =>
        obtain ⟨hquery, hemitted, hpassed⟩ := ht
        exact ⟨⟨attempt, _, List.prefix_rfl, hemitted, hpassed, fun _ => rfl⟩, [0], hquery, hone⟩
      | true =>
        obtain ⟨hquery, hseen, hemitted⟩ := ht
        rw [if_pos rfl]
        refine (ih (attempt + 1) hseen).mono (fun r u hu => ?_)
        obtain ⟨⟨k, p, hp, hemitted', hpassed, hok⟩, queries, hqueries, hzero⟩ := hu
        refine ⟨⟨k, p, hp, ?_, hpassed, hok⟩, 0 :: queries, ?_, ?_⟩
        · rw [hemitted', hemitted]
        · rw [hqueries, hquery, List.append_assoc]
          rfl
        · exact List.forall_mem_cons.2 ⟨rfl, hzero⟩
    · obtain ⟨hquery, p, hp, hemitted, hpassed⟩ := ht
      exact ⟨⟨attempt, p, hp, hemitted, hpassed, nofun⟩, [0], hquery, hone⟩

/-- **A call of `stream`**, with every schedule of faults: the records it emits are those of
the first rows of one result, in order and each row once, less the rows that the mapper maps to
none or whose failure the policy drops; no query is made after a row has been seen; and if the
call comes to its end, it has read the whole result. -/
theorem ensures_stream (cfg : PostgresSource ρ κ τ) (fuel : ℕ) (s : PostgresSourceState κ τ) :
    Ensures (cfg.stream fuel) s (fun r t =>
      (∃ attempt p, p <+: cfg.results attempt ∧ t.emitted = s.emitted ++ cfg.images 0 p
          ∧ cfg.PassedEach 0 p ∧ (r = .ok true → p = cfg.results attempt))
        ∧ ∃ queries, t.rowsSeenAtQuery = s.rowsSeenAtQuery ++ queries
          ∧ ∀ n ∈ queries, n = 0) := by
  unfold stream
  rw [ensures_bind, ensures_modify]
  exact ensures_readLoop fuel 1 rfl

end PostgresSource

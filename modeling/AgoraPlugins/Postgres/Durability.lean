import AgoraPlugins.Postgres.Sink

/-!
# What the PostgreSQL sink makes durable

A row that is in the table or in the DLQ stays there, whatever method is called
and however it exits (`Grows`). A flush that returns has committed what was in
the buffer, and so has a write that returns when its row filled the buffer; a
write that returns otherwise has put its row at the end of the buffer and done
nothing else.
-/

open Effect

namespace PostgresSink

variable {T ρ : Type} (cfg : Config T ρ) (retry : RetryAsync ρ)

/-! ## What is durable stays so -/

/-- **Rows stay where they are durable.** -/
structure Grows (s t : State ρ) : Prop where
  committed : ∀ row ∈ s.committed, row ∈ t.committed
  routed : ∀ row ∈ s.routed, row ∈ t.routed

instance : IsPreorder (State ρ) Grows where
  refl _ := ⟨fun _ => id, fun _ => id⟩
  trans _ _ _ h h' := ⟨fun row hrow => h'.committed row (h.committed row hrow),
    fun row hrow => h'.routed row (h.routed row hrow)⟩

/-- Nothing grows where nothing is committed or routed. -/
theorem Grows.of_eq {s t : State ρ} (hc : t.committed = s.committed)
    (hr : t.routed = s.routed) : Grows s t where
  committed := by
    rw [hc]
    exact fun _ => id
  routed := by
    rw [hr]
    exact fun _ => id

/-- A wait commits nothing and routes nothing. -/
theorem grows_await : Respects Grows (await : SinkM ρ PUnit) :=
  fun _ => ensures_await (fun _ => .of_eq rfl rfl) (fun _ _ => .of_eq rfl rfl)

/-- What raises by itself has touched neither the table nor the dead letters. -/
theorem grows_ofExcept {ε β : Type} (raised : ε → Raised) (e : Except ε β) :
    Respects Grows (ofExcept raised e : SinkM ρ β) := by
  cases e with
  | ok b => exact respects_pure b
  | error e => exact respects_throw _

/-- What is raised is wrapped, and what was done stays done. -/
theorem grows_wrapping {m : SinkM ρ PUnit} (hm : Respects Grows m) :
    Respects Grows (wrapping cfg m) :=
  hm.tryCatch (fun _ => respects_throw _)

/-- A row is aligned with the target in memory. -/
theorem grows_alignRow (row : ρ) : Respects Grows (alignRow cfg row) := by
  unfold alignRow
  cases cfg.policy with
  | strict => exact respects_pure row
  | alignToTarget => exact grows_await.bind (fun _ => grows_ofExcept _ _)

/-- **Rows are prepared** in memory, before anything is sent. -/
theorem grows_prepare (rows : List ρ) : Respects Grows (prepare cfg rows) := by
  unfold prepare
  cases cfg.policy with
  | strict => exact respects_pure _
  | alignToTarget =>
    refine grows_await.bind (fun _ => respects_forM (fun row => ?_) rows)
    exact (grows_ofExcept _ _).bind (fun _ => respects_pure _)

/-- **An attempt** adds its rows to the table, or leaves it as it is. -/
theorem grows_attempt (rows : List ρ) : Respects Grows (attempt rows) := by
  refine grows_await.bind (fun _ => Respects.bind ?_ (fun _ => grows_await))
  exact respects_modify (fun s => ⟨fun _ => List.mem_append_left rows, fun _ => id⟩)

/-- **All attempts together** take nothing back, however many there are. -/
theorem grows_writeRows (rows : List ρ) : Respects Grows (writeRows cfg retry rows) := by
  unfold writeRows
  have hretry := Attempts.respects (grows_attempt rows) (retry.attempts (attempt rows))
  cases cfg.insertMode with
  | copy => exact grows_attempt rows
  | sql => exact hretry
  | copyMerge => exact hretry

/-- The buffer is no part of what has been accounted for. -/
theorem grows_clearBufferPrefix (count : ℕ) :
    Respects Grows (clearBufferPrefix count : SinkM ρ PUnit) :=
  respects_modify (fun _ => .of_eq rfl rfl)

/-- A flush moves rows to the table and takes none away from it. -/
theorem grows_flush : Respects Grows (flush cfg retry) := by
  unfold flush
  refine respects_get.bind (fun s => ?_)
  dsimp only
  split
  · exact respects_pure _
  · exact (grows_wrapping cfg (grows_prepare cfg _)).bind (fun _ =>
      (grows_wrapping cfg (grows_writeRows cfg retry _)).bind (fun _ =>
        grows_clearBufferPrefix _))

/-- **Routing** adds to what has been routed. -/
theorem grows_routeFailedBufferToDLQ : Respects Grows (routeFailedBufferToDLQ cfg) := by
  unfold routeFailedBufferToDLQ
  refine respects_get.bind (fun s => ?_)
  dsimp only
  split
  · refine grows_await.bind (fun _ => Respects.bind ?_ (fun _ => grows_clearBufferPrefix _))
    exact respects_modify (fun _ => ⟨fun _ => id, fun _ => List.mem_append_left _⟩)
  · exact respects_pure _

/-- What is dropped takes nothing back. -/
theorem grows_dropRejected (error : PostgresSinkWriteError) :
    Respects Grows (dropRejected cfg error : SinkM ρ PUnit) := by
  unfold dropRejected
  split
  · exact respects_modify (fun _ => .of_eq rfl rfl)
  · exact respects_pure _

/-- Whatever is done about an error takes nothing back. -/
theorem grows_handleFlushError (r : Raised) : Respects Grows (handleFlushError cfg r) := by
  cases r with
  | other e => exact respects_throw _
  | writeError error =>
    exact (grows_routeFailedBufferToDLQ cfg).bind (fun _ =>
      (grows_dropRejected cfg error).bind (fun _ => respects_throw _))

/-- A row that is buffered may cause a flush. -/
theorem grows_enqueueRow (row : ρ) : Respects Grows (enqueueRow cfg retry row) := by
  unfold enqueueRow
  refine Respects.bind (respects_modify (fun _ => .of_eq rfl rfl)) (fun _ =>
    respects_get.bind (fun s => ?_))
  split
  · exact (grows_flush cfg retry).tryCatch (grows_handleFlushError cfg)
  · exact respects_pure _

/-- **`write` takes nothing back**, whether or not the row it buffers causes a flush. -/
theorem grows_write (record : T) : Respects Grows (write cfg retry record) :=
  (grows_ofExcept _ _).bind (fun row => (grows_alignRow cfg row).bind (fun row =>
    grows_enqueueRow cfg retry row))

/-- An error on closing is logged, or wrapped. -/
theorem grows_handleCloseError (r : Raised) : Respects Grows (handleCloseError cfg r) := by
  cases r with
  | other e =>
    show Respects Grows (if e.isException = true then _ else _)
    split
    · exact respects_pure _
    · exact respects_throw _
  | writeError error =>
    show Respects Grows (if cfg.poisonSink = true then _ else _)
    split
    · refine ((grows_routeFailedBufferToDLQ cfg).bind (fun _ => respects_pure _)).tryCatch
        (fun r => ?_)
      split
      · exact respects_pure _
      · exact respects_throw r
    · exact respects_pure _

/-- **`close` takes nothing back**, whether or not its last flush goes through. -/
theorem grows_close : Respects Grows (close cfg retry) := by
  unfold close
  refine (((grows_flush cfg retry).bind (fun _ => respects_pure _)).tryCatch
    (grows_handleCloseError cfg)).bind (fun flushError => grows_await.bind (fun _ => ?_))
  cases flushError with
  | none => exact respects_pure _
  | some r => exact respects_throw r

/-! ## What has been committed on return -/

/-- An attempt that returns has committed the rows, and touched nothing but the
script besides. -/
theorem exits_attempt (rows : List ρ) :
    Exits (fun s t : State ρ => t.buffer = s.buffer ∧ ∀ row ∈ rows, row ∈ t.committed)
      (fun s t => t.buffer = s.buffer) (attempt rows) := by
  intro s
  unfold attempt
  rw [ensures_bind]
  refine ensures_await (fun script => ?_) (fun _ _ => rfl)
  rw [ensures_bind, ensures_modify]
  refine ensures_await (fun script => ⟨rfl, ?_⟩) (fun _ _ => rfl)
  exact fun row hrow => List.mem_append_right _ hrow

/-- The buffer is as it was. -/
def SameBuffer (s t : State ρ) : Prop := t.buffer = s.buffer

instance : IsPreorder (State ρ) SameBuffer where
  refl _ := rfl
  trans _ _ _ h h' := h'.trans h

/-- **Rows that were written** are in the table, and the buffer is as it was. -/
theorem exits_writeRows (rows : List ρ) :
    Exits (fun s t => SameBuffer s t ∧ ∀ row ∈ rows, row ∈ t.committed) SameBuffer
      (writeRows cfg retry rows) := by
  have hattempt := exits_attempt rows
  have hsame : Respects SameBuffer (attempt rows) :=
    Exits.respects (hattempt.mono (fun _ _ h => h.1) (fun _ _ h => h))
  have hretry : Exits (fun s t => SameBuffer s t ∧ ∀ row ∈ rows, row ∈ t.committed) SameBuffer
      (retry.run (attempt rows)) :=
    Attempts.exits hattempt hsame (fun _ _ _ h h' => ⟨trans_of SameBuffer h h'.1, h'.2⟩)
      (retry.attempts (attempt rows))
  unfold writeRows
  cases cfg.insertMode with
  | copy => exact hattempt
  | sql => exact hretry
  | copyMerge => exact hretry

/-- What holds on return holds of the wrapped call, and what holds after an error too. -/
theorem Exits.wrapping {R E : State ρ → State ρ → Prop} {m : SinkM ρ PUnit}
    (h : Exits R E m) : Exits R E (wrapping cfg m) := by
  intro s
  unfold PostgresSink.wrapping
  rw [ensures_tryCatch]
  refine (h s).mono (fun r t hst => ?_)
  cases r with
  | ok _ => exact hst
  | error _ => exact hst

/-- **A flush that returns has committed what was in the buffer.** -/
theorem exits_flush :
    Exits (fun s t : State ρ => ∀ row ∈ s.buffer, row ∈ t.committed) (fun _ _ => True)
      (flush cfg retry) := by
  intro s
  unfold flush
  rw [ensures_bind, ensures_get]
  dsimp only
  split
  · rename_i hempty
    have hnil : s.buffer = [] := List.isEmpty_iff.1 hempty
    simp [hnil]
  · have hprepare : Ensures (wrapping cfg (prepare cfg s.buffer)) s (fun _ _ => True) :=
      (grows_wrapping cfg (grows_prepare cfg s.buffer) s).mono (fun _ _ _ => trivial)
    refine hprepare.bind (fun _ t _ => ?_) (fun _ _ _ => trivial)
    refine (Exits.wrapping cfg (exits_writeRows cfg retry s.buffer) t).bind
      (fun _ u htu => ?_) (fun _ _ _ => trivial)
    exact htu.2

/-- What a flush raises while a row is enqueued is raised again. -/
theorem raises_handleFlushError (r : Raised) :
    Raises (handleFlushError cfg r : SinkM ρ PUnit) := by
  cases r with
  | other e => exact raises_throw _
  | writeError error =>
    exact Raises.after _ (fun _ => Raises.after _ (fun _ => raises_throw _))

/-- **A row is enqueued**: with the buffer full it is committed, and otherwise it
is at the end of the buffer. -/
theorem exits_enqueueRow (row : ρ) :
    Exits (fun s t : State ρ =>
        (cfg.batchSize ≤ s.buffer.length + 1 → row ∈ t.committed)
        ∧ (s.buffer.length + 1 < cfg.batchSize → t = { s with buffer := s.buffer ++ [row] }))
      (fun _ _ => True) (enqueueRow cfg retry row) := by
  intro s
  unfold enqueueRow
  rw [ensures_bind, ensures_modify, ensures_bind, ensures_get]
  show Ensures (if cfg.batchSize ≤ (s.buffer ++ [row]).length then _ else _)
    { s with buffer := s.buffer ++ [row] } _
  rw [List.length_append, List.length_singleton]
  by_cases hfull : cfg.batchSize ≤ s.buffer.length + 1
  · rw [if_pos hfull, ensures_tryCatch]
    refine (exits_flush cfg retry { s with buffer := s.buffer ++ [row] }).mono
      (fun r t hst => ?_)
    cases r with
    | ok _ =>
      refine ⟨fun _ => hst row (List.mem_append_right _ (List.mem_singleton.2 rfl)), ?_⟩
      omega
    | error r =>
      refine (raises_handleFlushError cfg r t).mono (fun r' u hr => ?_)
      obtain ⟨_, rfl⟩ := hr
      trivial
  · rw [if_neg hfull, ensures_pure]
    exact ⟨fun h => absurd h hfull, fun _ => rfl⟩

end PostgresSink

import AgoraPlugins.Machine
import AgoraPlugins.Postgres.Sink

/-!
# A PostgreSQL sink with several callers

The methods of a `PostgresSink` are coroutines, and several of them may be under
way at once: a flush takes a snapshot of the buffer, awaits the database, and
then takes as many rows from the front of the buffer as the snapshot had. The
DLQ is written to in the same way. Other calls append rows in the meantime, and
take rows away.

A call is where its coroutine is (`Pc`), and an event is what happens at an
await point. That the database commits and that the coroutine is resumed are two
events, so a call may be cancelled, or fail, after its rows have been committed.

Rows are told apart by a number. A row that is enqueued is in the buffer until it
is committed or in the DLQ – or the call that enqueued it has raised that the
database rejects it, which with a batch size of one is left to the caller. That
law holds in every run in which what a call takes out of the buffer is its own:
the rows of its snapshot, or its own rejected row.
-/

open Machine

namespace ConcurrentSink

open PostgresSink

/-- A row, and the call that enqueued it. -/
structure Row where
  seq : ℕ
  call : ℕ
  deriving DecidableEq

/-- **What a flush returns to**: the loop that enqueues rows, with so many of
them still to come, or the call itself. -/
inductive Caller where
  | enqueue (remaining : ℕ)
  | flush
  | close
  deriving DecidableEq

/-- **Where a call is.** -/
inductive Pc where
  /-- awaiting the target columns, with so many rows to enqueue -/
  | mapping (rows : ℕ)
  /-- awaiting the target columns in a flush -/
  | preparing (rows : List Row)
  /-- awaiting the transaction, which may have been committed by now -/
  | writing (rows : List Row) (durable : Bool)
  /-- awaiting the DLQ, which may have the rows by now -/
  | routing (rows : List Row) (error : PostgresSinkWriteError) (stored : Bool)
  /-- awaiting the connections, to raise what the flush has raised -/
  | closing (flushError : Option Raised)
  | returned
  | raised
  deriving DecidableEq

/-- A call. -/
structure Call where
  caller : Caller
  pc : Pc
  deriving DecidableEq

/-- **The state of a sink and its calls**, the calls in the order they were
made. The last group only records: the rows enqueued, committed and in the DLQ,
and the calls that have raised a rejection and dropped what was in the
buffer. -/
structure State where
  buffer : List Row := []
  calls : List Call := []
  enqueued : List Row := []
  committed : List Row := []
  routed : List Row := []
  refused : List ℕ := []
  deriving DecidableEq

/-- The methods that several tasks may call at once. -/
inductive Method where
  | write
  | writeBatch (records : ℕ)
  | flush
  | close
  deriving DecidableEq

/-- What happens at an await point. -/
inductive Event where
  | call (method : Method)
  /-- what the call awaits has returned -/
  | resumed (call : ℕ)
  /-- the database has committed the call's transaction -/
  | committed (call : ℕ)
  /-- the DLQ has stored the call's rows -/
  | stored (call : ℕ)
  /-- what the call awaits raises, or the call is cancelled there -/
  | failed (call : ℕ) (r : Raised)

namespace State

variable {T ρ : Type} (cfg : Config T ρ) (s : State)

/-- A call goes on to where it awaits something next, or ends. -/
def put (i : ℕ) (caller : Caller) (pc : Pc) : State :=
  { s with calls := s.calls.set i ⟨caller, pc⟩ }

/-- A row joins the buffer. -/
def append (i : ℕ) : State :=
  { s with
    buffer := s.buffer ++ [⟨s.enqueued.length, i⟩]
    enqueued := s.enqueued ++ [⟨s.enqueued.length, i⟩] }

/-- Takes as many rows from the front of the buffer, as
`_discard_buffer_indexes` and `clear_buffer_prefix` do. -/
def clearBufferPrefix (count : ℕ) : State :=
  { s with buffer := s.buffer.drop count }

/-- A flush of a buffer that is not empty takes its snapshot. -/
def startFlush (i : ℕ) (caller : Caller) : State :=
  s.put i caller (match cfg.policy with
    | .strict => .writing s.buffer false
    | .alignToTarget => .preparing s.buffer)

/-- The loop over the rows of a call, up to the first flush. -/
def enqueueRows (i : ℕ) : ℕ → State → State
  | 0, s => s.put i (.enqueue 0) .returned
  | n + 1, s =>
    if cfg.batchSize ≤ (s.append i).buffer.length then
      (s.append i).startFlush cfg i (.enqueue n)
    else enqueueRows i n (s.append i)

/-- A flush returns to its caller. -/
def flushReturns (i : ℕ) : Caller → State
  | .enqueue n => s.enqueueRows cfg i n
  | .flush => s.put i .flush .returned
  | .close => s.put i .close (.closing none)

/-- **`flush`**, which does nothing if the buffer is empty. -/
def flush (i : ℕ) (caller : Caller) : State :=
  if s.buffer = [] then s.flushReturns cfg i caller else s.startFlush cfg i caller

/-- Whether a rejected row is left to the caller. -/
def clears (error : PostgresSinkWriteError) : Bool :=
  !cfg.poisonSink && cfg.batchSize = 1 && error.classification ≠ .unknown

/-- The write raises the error, the DLQ having been seen to. -/
def refuse (i n : ℕ) (error : PostgresSinkWriteError) : State :=
  if clears cfg error then
    { s.put i (.enqueue n) .raised with buffer := [], refused := s.refused ++ [i] }
  else s.put i (.enqueue n) .raised

/-- **A flush raises** to its caller. -/
def flushRaises (i : ℕ) : Caller → Raised → State
  | .enqueue n, .writeError error =>
    if cfg.poisonSink && s.buffer ≠ [] then
      s.put i (.enqueue n) (.routing s.buffer error false)
    else s.refuse cfg i n error
  | .enqueue n, .other _ => s.put i (.enqueue n) .raised
  | .flush, _ => s.put i .flush .raised
  | .close, .writeError error =>
    if cfg.poisonSink then
      if s.buffer = [] then s.put i .close (.closing none)
      else s.put i .close (.routing s.buffer error false)
    else s.put i .close (.closing (some (.writeError error)))
  | .close, .other e =>
    if e.isException then s.put i .close (.closing (some (.other e)))
    else s.put i .close .raised

/-- The DLQ has taken the rows, and its caller goes on. -/
def routingReturns (i : ℕ) (error : PostgresSinkWriteError) : Caller → State
  | .enqueue n => s.refuse cfg i n error
  | .flush => s.put i .flush .raised
  | .close => s.put i .close (.closing none)

/-- The DLQ has raised. -/
def routingRaises (i : ℕ) (r : Raised) : Caller → State
  | .enqueue n => s.put i (.enqueue n) .raised
  | .flush => s.put i .flush .raised
  | .close =>
    if r.isException then s.put i .close (.closing (some r)) else s.put i .close .raised

/-- The rows of a call are enqueued, when the target columns are there if they
are needed. -/
def writeRows (i n : ℕ) : State :=
  match cfg.policy with
  | .strict => s.enqueueRows cfg i n
  | .alignToTarget => s.put i (.enqueue n) (.mapping n)

/-- The place of a call that is being made. -/
def enter : State :=
  { s with calls := s.calls ++ [⟨.flush, .returned⟩] }

/-- **A method is called**, and runs to its first await point. -/
def begin (i : ℕ) : Method → State
  | .write => s.writeRows cfg i 1
  | .writeBatch 0 => s.put i (.enqueue 0) .returned
  | .writeBatch (n + 1) => s.writeRows cfg i (n + 1)
  | .flush => s.flush cfg i .flush
  | .close => s.flush cfg i .close

/-- A call is resumed with what it awaited. -/
def resume (i : ℕ) (c : Call) : Option State :=
  match c.pc with
  | .mapping n => some (s.enqueueRows cfg i n)
  | .preparing rows => some (s.put i c.caller (.writing rows false))
  | .writing rows true =>
    some ((s.clearBufferPrefix rows.length).flushReturns cfg i c.caller)
  | .routing rows error true =>
    some ((s.clearBufferPrefix rows.length).routingReturns cfg i error c.caller)
  | .closing none => some (s.put i c.caller .returned)
  | .closing (some _) => some (s.put i c.caller .raised)
  -- nothing has been committed or stored yet, or the call has ended
  | .writing _ false | .routing _ _ false | .returned | .raised => none

/-- What a call awaits raises. -/
def fail (i : ℕ) (c : Call) (r : Raised) : Option State :=
  match c.pc with
  | .mapping _ | .closing _ => some (s.put i c.caller .raised)
  | .preparing _ | .writing _ _ =>
    some (s.flushRaises cfg i c.caller (wrapWriteError cfg r))
  | .routing _ _ _ => some (s.routingRaises i r c.caller)
  | .returned | .raised => none

end State

variable {T ρ : Type} (cfg : Config T ρ)

/-- **One event.** A transaction that commits may have been attempted before. -/
def step (s : State) : Event → Option State
  | .call method =>
    some (s.enter.begin cfg s.calls.length method)
  | .resumed i => s.calls[i]?.bind (s.resume cfg i)
  | .committed i => s.calls[i]?.bind (fun c =>
    match c.pc with
    | .writing rows _ =>
      some { s.put i c.caller (.writing rows true) with committed := s.committed ++ rows }
    | _ => none)
  | .stored i => s.calls[i]?.bind (fun c =>
    match c.pc with
    | .routing rows error _ =>
      some { s.put i c.caller (.routing rows error true) with routed := s.routed ++ rows }
    | _ => none)
  | .failed i r => s.calls[i]?.bind (fun c => s.fail cfg i c r)

/-! ## The law -/

/-- **No row is lost**: each is in the buffer, committed, or in the DLQ, or its
call has raised that it is rejected. -/
def NoLoss (s : State) : Prop :=
  ∀ row ∈ s.enqueued, row ∈ s.buffer ∨ row ∈ s.committed ∨ row ∈ s.routed
    ∨ row.call ∈ s.refused

instance (s : State) : Decidable (NoLoss s) :=
  inferInstanceAs (Decidable (∀ row ∈ s.enqueued, _))

/-- Whether the buffer is dropped when the call raises this. -/
def dropsBuffer (c : Call) (r : Raised) : Bool :=
  match c.caller, c.pc, wrapWriteError cfg r with
  | .enqueue _, .preparing _, .writeError error => State.clears cfg error
  | .enqueue _, .writing _ _, .writeError error => State.clears cfg error
  | _, _, _ => false

/-- The rows a call takes out of the buffer when it is resumed are those it has
written. -/
def TakesSnapshot (s : State) (c : Call) : Prop :=
  match c.pc with
  | .writing rows _ | .routing rows _ _ => ∀ row ∈ s.buffer.take rows.length, row ∈ rows
  | _ => True

instance (s : State) (c : Call) : Decidable (TakesSnapshot s c) := by
  unfold TakesSnapshot
  split <;> infer_instance

/-- **A call takes only its own rows out of the buffer**: those of the snapshot
it has written, or its own when they are dropped. -/
def TakesOwn (s : State) : Event → Prop
  | .resumed i => ∀ c ∈ s.calls[i]?, TakesSnapshot s c
  | .failed i r => ∀ c ∈ s.calls[i]?, dropsBuffer cfg c r = true → ∀ row ∈ s.buffer, row.call = i
  | _ => True

instance (s : State) (e : Event) : Decidable (TakesOwn cfg s e) := by
  unfold TakesOwn
  split <;> infer_instance

/-! ## What a step keeps -/

/-- A call that has been told its rows are durable is right, and one that awaits
the DLQ has one. -/
def Backed (s : State) (pc : Pc) : Prop :=
  match pc with
  | .writing rows durable => durable = true → ∀ row ∈ rows, row ∈ s.committed
  | .routing rows _ stored =>
    cfg.poisonSink = true ∧ (stored = true → ∀ row ∈ rows, row ∈ s.routed)
  | _ => True

/-- **The invariant.** -/
structure Held (s : State) : Prop where
  noLoss : NoLoss s
  backed : ∀ c ∈ s.calls, Backed cfg s c.pc

namespace Held

variable {cfg} {s : State}

theorem put (h : Held cfg s) (i : ℕ) (caller : Caller) {pc : Pc} (hpc : Backed cfg s pc) :
    Held cfg (s.put i caller pc) where
  noLoss := h.noLoss
  backed c hc := by
    rcases List.mem_or_eq_of_mem_set hc with hc | rfl
    · exact h.backed c hc
    · exact hpc

theorem enter (h : Held cfg s) : Held cfg s.enter where
  noLoss := h.noLoss
  backed c hc := by
    rcases List.mem_append.1 hc with hc | hc
    · exact h.backed c hc
    · rw [List.mem_singleton.1 hc]
      exact trivial

theorem append (h : Held cfg s) (i : ℕ) : Held cfg (s.append i) where
  noLoss row hrow := by
    rcases List.mem_append.1 hrow with hrow | hrow
    · exact (h.noLoss row hrow).imp_left (List.mem_append_left _)
    · exact .inl (List.mem_append_right _ hrow)
  backed := h.backed

theorem startFlush (h : Held cfg s) (i : ℕ) (caller : Caller) :
    Held cfg (s.startFlush cfg i caller) := by
  refine h.put i caller ?_
  cases cfg.policy with
  | strict => exact nofun
  | alignToTarget => trivial

/-- By induction on the rows still to come. -/
theorem enqueueRows (i : ℕ) :
    ∀ (n : ℕ) {s : State}, Held cfg s → Held cfg (State.enqueueRows cfg i n s)
  | 0, _, h => h.put i _ trivial
  | n + 1, s, h => by
    unfold State.enqueueRows
    split
    · exact (h.append i).startFlush i _
    · exact enqueueRows i n (h.append i)

theorem flushReturns (h : Held cfg s) (i : ℕ) (caller : Caller) :
    Held cfg (s.flushReturns cfg i caller) := by
  cases caller with
  | enqueue n => exact enqueueRows i n h
  | flush => exact h.put i _ trivial
  | close => exact h.put i _ trivial

theorem flush (h : Held cfg s) (i : ℕ) (caller : Caller) : Held cfg (s.flush cfg i caller) := by
  unfold State.flush
  split
  · exact h.flushReturns i caller
  · exact h.startFlush i caller

/-- **Rows leave the buffer** once they are durable, if it is those rows that
leave. -/
theorem clearBufferPrefix (h : Held cfg s) {rows : List Row}
    (hown : ∀ row ∈ s.buffer.take rows.length, row ∈ rows)
    (hdurable : ∀ row ∈ rows, row ∈ s.committed ∨ row ∈ s.routed) :
    Held cfg (s.clearBufferPrefix rows.length) where
  noLoss row hrow := by
    rcases h.noLoss row hrow with hbuffer | hdone
    · rw [← List.take_append_drop rows.length s.buffer] at hbuffer
      rcases List.mem_append.1 hbuffer with htaken | hleft
      · rcases hdurable row (hown row htaken) with hc | hr
        · exact .inr (.inl hc)
        · exact .inr (.inr (.inl hr))
      · exact .inl hleft
    · exact .inr hdone
  backed := h.backed

theorem refuse (h : Held cfg s) (i n : ℕ) (error : PostgresSinkWriteError)
    (hown : State.clears cfg error = true → ∀ row ∈ s.buffer, row.call = i) :
    Held cfg (s.refuse cfg i n error) := by
  unfold State.refuse
  split
  · rename_i hclears
    have hput : Held cfg (s.put i (.enqueue n) .raised) := h.put i _ trivial
    refine ⟨fun row hrow => ?_, hput.backed⟩
    rcases h.noLoss row hrow with hbuffer | hc | hr | hrefused
    · have hi : row.call = i := hown hclears row hbuffer
      refine .inr (.inr (.inr (List.mem_append_right _ ?_)))
      rw [hi]
      exact List.mem_singleton.2 rfl
    · exact .inr (.inl hc)
    · exact .inr (.inr (.inl hr))
    · exact .inr (.inr (.inr (List.mem_append_left _ hrefused)))
  · exact h.put i _ trivial

theorem flushRaises (h : Held cfg s) (i : ℕ) (caller : Caller) (r : Raised)
    (hown : ∀ n error, caller = .enqueue n → r = .writeError error →
      State.clears cfg error = true → ∀ row ∈ s.buffer, row.call = i) :
    Held cfg (s.flushRaises cfg i caller r) := by
  unfold State.flushRaises
  split
  · split
    · rename_i hroutes
      exact h.put i _ ⟨(Bool.and_eq_true_iff.1 hroutes).1, nofun⟩
    · exact h.refuse i _ _ (hown _ _ rfl rfl)
  · exact h.put i _ trivial
  · exact h.put i _ trivial
  · split
    · rename_i hpoison
      split
      · exact h.put i _ trivial
      · exact h.put i _ ⟨hpoison, nofun⟩
    · exact h.put i _ trivial
  · split <;> exact h.put i _ trivial

theorem routingRaises (h : Held cfg s) (i : ℕ) (r : Raised) (caller : Caller) :
    Held cfg (s.routingRaises i r caller) := by
  cases caller with
  | enqueue n => exact h.put i _ trivial
  | flush => exact h.put i _ trivial
  | close =>
    unfold State.routingRaises
    dsimp only
    split <;> exact h.put i _ trivial

theorem writeRows (h : Held cfg s) (i n : ℕ) : Held cfg (s.writeRows cfg i n) := by
  unfold State.writeRows
  split
  · exact enqueueRows i n h
  · exact h.put i _ trivial

theorem begin (h : Held cfg s) (i : ℕ) (method : Method) : Held cfg (s.begin cfg i method) := by
  unfold State.begin
  split
  · exact h.writeRows i 1
  · exact h.put i _ trivial
  · exact h.writeRows i _
  · exact h.flush i _
  · exact h.flush i _

/-- The database commits the rows of a call. -/
theorem committed (h : Held cfg s) (i : ℕ) (caller : Caller) (rows : List Row) :
    Held cfg { s.put i caller (.writing rows true) with committed := s.committed ++ rows } where
  noLoss row hrow := by
    rcases h.noLoss row hrow with hb | hc | hdone
    · exact .inl hb
    · exact .inr (.inl (List.mem_append_left _ hc))
    · exact .inr (.inr hdone)
  backed c hc := by
    rcases List.mem_or_eq_of_mem_set hc with hc | rfl
    · have hs := h.backed c hc
      unfold Backed at hs ⊢
      split at hs
      · exact fun hd row hrow => List.mem_append_left _ (hs hd row hrow)
      · exact hs
      · trivial
    · exact fun _ row hrow => List.mem_append_right _ hrow

/-- The DLQ stores them. -/
theorem stored (h : Held cfg s) (i : ℕ) (caller : Caller) (rows : List Row)
    (error : PostgresSinkWriteError) (hpoison : cfg.poisonSink = true) :
    Held cfg { s.put i caller (.routing rows error true) with routed := s.routed ++ rows } where
  noLoss row hrow := by
    rcases h.noLoss row hrow with hb | hc | hr | hrefused
    · exact .inl hb
    · exact .inr (.inl hc)
    · exact .inr (.inr (.inl (List.mem_append_left _ hr)))
    · exact .inr (.inr (.inr hrefused))
  backed c hc := by
    rcases List.mem_or_eq_of_mem_set hc with hc | rfl
    · have hs := h.backed c hc
      unfold Backed at hs ⊢
      split at hs
      · exact hs
      · exact ⟨hs.1, fun hd row hrow => List.mem_append_left _ (hs.2 hd row hrow)⟩
      · trivial
    · exact ⟨hpoison, fun _ row hrow => List.mem_append_right _ hrow⟩

/-- **A call is resumed.** -/
theorem resume (h : Held cfg s) {i : ℕ} {c : Call} (hc : s.calls[i]? = some c)
    (hown : TakesOwn cfg s (.resumed i)) {t : State} (ht : s.resume cfg i c = some t) :
    Held cfg t := by
  have hbacked := h.backed c (List.mem_of_getElem? hc)
  have htakes := hown c hc
  unfold TakesSnapshot at htakes
  unfold State.resume at ht
  split at ht
  · obtain rfl := Option.some.inj ht
    exact enqueueRows i _ h
  · obtain rfl := Option.some.inj ht
    exact h.put i _ nofun
  · rename_i rows hpc
    rw [hpc] at hbacked htakes
    obtain rfl := Option.some.inj ht
    exact (h.clearBufferPrefix htakes (fun row hrow => .inl (hbacked rfl row hrow))).flushReturns
      i c.caller
  · rename_i rows error hpc
    rw [hpc] at hbacked htakes
    obtain ⟨hpoison, hstored⟩ := hbacked
    have hcleared := h.clearBufferPrefix htakes (fun row hrow => .inr (hstored rfl row hrow))
    obtain rfl := Option.some.inj ht
    unfold State.routingReturns
    split
    · refine hcleared.refuse i _ error (fun hclears => ?_)
      -- there is a DLQ, so nothing is left to the caller
      unfold State.clears at hclears
      rw [hpoison] at hclears
      cases hclears
    · exact hcleared.put i _ trivial
    · exact hcleared.put i _ trivial
  · obtain rfl := Option.some.inj ht
    exact h.put i _ trivial
  · obtain rfl := Option.some.inj ht
    exact h.put i _ trivial
  all_goals cases ht

/-- **What a call awaits raises.** -/
theorem fail (h : Held cfg s) {i : ℕ} {c : Call} {r : Raised} (hc : s.calls[i]? = some c)
    (hown : TakesOwn cfg s (.failed i r)) {t : State} (ht : s.fail cfg i c r = some t) :
    Held cfg t := by
  have hdrops := hown c hc
  unfold dropsBuffer at hdrops
  unfold State.fail at ht
  split at ht
  · obtain rfl := Option.some.inj ht
    exact h.put i _ trivial
  · obtain rfl := Option.some.inj ht
    exact h.put i _ trivial
  · rename_i rows hpc
    obtain rfl := Option.some.inj ht
    refine h.flushRaises i c.caller _ (fun n error hn hr hclears => hdrops ?_)
    rw [hn, hpc, hr]
    exact hclears
  · rename_i rows durable hpc
    obtain rfl := Option.some.inj ht
    refine h.flushRaises i c.caller _ (fun n error hn hr hclears => hdrops ?_)
    rw [hn, hpc, hr]
    exact hclears
  · obtain rfl := Option.some.inj ht
    exact h.routingRaises i r c.caller
  all_goals cases ht

/-- **Every step keeps the invariant** in which the calls take their own rows
only. -/
theorem step {e : Event} {t : State} (h : Held cfg s) (hown : TakesOwn cfg s e)
    (ht : ConcurrentSink.step cfg s e = some t) : Held cfg t := by
  cases e with
  | call method =>
    obtain rfl := Option.some.inj ht
    exact h.enter.begin _ method
  | resumed i =>
    obtain ⟨c, hc, ht⟩ := Option.bind_eq_some_iff.1 ht
    exact h.resume hc hown ht
  | failed i r =>
    obtain ⟨c, hc, ht⟩ := Option.bind_eq_some_iff.1 ht
    exact h.fail hc hown ht
  | committed i =>
    obtain ⟨c, hc, ht⟩ := Option.bind_eq_some_iff.1 ht
    dsimp only at ht
    split at ht
    · obtain rfl := Option.some.inj ht
      exact h.committed i _ _
    · cases ht
  | stored i =>
    obtain ⟨c, hc, ht⟩ := Option.bind_eq_some_iff.1 ht
    have hbacked := h.backed c (List.mem_of_getElem? hc)
    dsimp only at ht
    split at ht
    · rename_i rows error stored hpc
      rw [hpc] at hbacked
      obtain rfl := Option.some.inj ht
      exact h.stored i _ rows error hbacked.1
    · cases ht

end Held

/-! ## Every run -/

/-- **No row is lost in any run** in which what a call takes out of the buffer is
its own. -/
theorem noLoss_of_takesOwn (es : List Event)
    (h : AllSteps (step cfg) (fun s e _ => TakesOwn cfg s e) {} es) :
    AllStates (step cfg) NoLoss {} es := by
  have hinitial : Held cfg {} := by
    refine ⟨fun row hrow => ?_, fun c hc => ?_⟩
    · cases hrow
    · cases hc
  have hheld : AllStates (step cfg) (Held cfg) {} es :=
    allStates_of_step (fun s e t hs hown ht => hs.step hown ht) hinitial h
  exact hheld.mono (fun s hs => hs.noLoss)


/-- Batches of the default size. -/
def plainSink : Config ℕ ℕ where
  rowMapper := Except.ok

/-- A record is written, and flushed while another is written. -/
def writtenDuringFlush : List Event :=
  [.call .write, .call .flush, .call .write, .committed 1, .resumed 1, .call .close,
    .committed 3, .resumed 3, .resumed 3]

/-- The row that is written meanwhile stays in the buffer, and is flushed by `close`. -/
theorem noLoss_writtenDuringFlush :
    AllStates (step plainSink) NoLoss {} writtenDuringFlush := by
  refine noLoss_of_takesOwn plainSink writtenDuringFlush ?_
  decide

/-- Two flushes have the same row in their snapshots. A row is written when the
first has returned, and the second takes it out of the buffer. -/
def flushedTwice : List Event :=
  [.call .write, .call .flush, .call .flush, .committed 1, .resumed 1, .call .write,
    .committed 2, .resumed 2]

/-- **The row is lost**: the second flush takes it out without having inserted it. -/
theorem not_noLoss_flushedTwice : ¬ AllStates (step plainSink) NoLoss {} flushedTwice := by
  decide

end ConcurrentSink

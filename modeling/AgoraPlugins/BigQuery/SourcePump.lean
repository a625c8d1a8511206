import AgoraPlugins.Machine
import Mathlib.Data.List.Infix

/-!
# The pump of the BigQuery source

A thread runs the query and puts what it reads into a queue of one item; a coroutine takes the
items out. It blocks in `Queue.get`, so each get runs in a thread of its own, which the
coroutine awaits. When the coroutine is cancelled, or raises, it sets a flag and waits for the
pump; the pump looks at the flag before each attempt to put an item, and gives up when it is
set.

A get whose thread has not begun is cancelled with the coroutine. One that has begun goes on,
and nobody is there for its item; but if the queue is empty it waits for an item, and a pump
that has seen the flag puts none.
-/

open Machine

namespace BigQueryPump

/-- What is put into the queue. -/
inductive Item (ρ : Type) where
  | started
  | batch (rows : List ρ)
  | completed
  | error

/-- **Where the pump is.** -/
inductive PumpPc (ρ : Type) where
  /-- no thread has taken it up -/
  | scheduled
  /-- in `start_query` -/
  | starting
  /-- in `queue_put_with_stop`, before it looks at the flag -/
  | checking (item : Item ρ)
  /-- in `event_queue.put`, with its timeout -/
  | putting (item : Item ρ)
  /-- before it looks at the flag in its loop -/
  | looping
  /-- in `read_row_batch` -/
  | reading
  | finished

/-- **Where a get is.** -/
inductive GetPc (ρ : Type) where
  /-- no thread has taken it up -/
  | submitted
  /-- in `event_queue.get` -/
  | running
  /-- it has an item, of which the coroutine has not been told -/
  | got (item : Item ρ)

/-- **Where the coroutine is.** -/
inductive ReaderPc where
  /-- awaiting a get -/
  | getting
  /-- among the rows of a batch: awaiting the mapper, or at a `yield` -/
  | handling
  /-- awaiting the pump after the last batch -/
  | joining
  /-- awaiting the pump in `finally` -/
  | finalising
  | finalised
  deriving DecidableEq

/-- It keeps reading. -/
def ReaderPc.Reading : ReaderPc → Prop
  | .getting | .handling | .joining => True
  | .finalising | .finalised => False

/-- The state of a stream, with the batches that have reached the coroutine, and the rows of
the result that the pump has not read. -/
structure State (ρ : Type) where
  queue : Option (Item ρ) := none
  stop : Bool := false
  pump : PumpPc ρ := .scheduled
  get : Option (GetPc ρ) := some .submitted
  reader : ReaderPc := .getting
  received : List (List ρ) := []
  rest : List ρ

/-- One step of the pump, of a get, or of the coroutine. -/
inductive Event where
  | pumpBegins
  /-- `start_query` returns or raises -/
  | queryStarts (succeeds : Bool)
  /-- the pump looks at the flag -/
  | pumpChecks
  | pumpPuts
  /-- there is no place in the queue -/
  | pumpTimesOut
  /-- `read_row_batch` returns or raises -/
  | pumpReads (succeeds : Bool)
  | getBegins
  | getTakes
  /-- the coroutine is told of the item -/
  | getReturns
  /-- the rows of a batch have been emitted -/
  | batchHandled
  /-- a row raises, or the generator is closed at a `yield` -/
  | raised
  /-- the coroutine is cancelled where it awaits something -/
  | cancelled
  /-- the pump has finished, and the coroutine is told -/
  | joined

variable {ρ : Type}

/-- What the pump does when an item has been put. -/
def afterPut : Item ρ → PumpPc ρ
  | .started | .batch _ => .looping
  | .completed | .error => .finished

/-- A batch that has been read, or the end of the result. -/
def nextItem : List ρ → Item ρ
  | [] => .completed
  | rows => .batch rows

/-- A get that has not begun is cancelled. -/
def cancelGet : Option (GetPc ρ) → Option (GetPc ρ)
  | some .submitted => none
  | get => get

/-- So is the pump. -/
def cancelPump : PumpPc ρ → PumpPc ρ
  | .scheduled => .finished
  | pump => pump

/-- **The coroutine has an item.** -/
def State.receive (s : State ρ) : Item ρ → State ρ
  | .started => { s with get := some .submitted }
  | .batch rows => { s with get := none, reader := .handling, received := s.received ++ [rows] }
  | .completed => { s with get := none, reader := .joining }
  | .error => { s with get := none, reader := .finalising, stop := true }

/-- **One event**, with the batch size. -/
def step (batchSize : ℕ) (s : State ρ) : Event → Option (State ρ)
  | .pumpBegins =>
    match s.pump with
    | .scheduled => some { s with pump := .starting }
    | _ => none
  | .queryStarts succeeds =>
    match s.pump with
    | .starting => some { s with pump := .checking (if succeeds then .started else .error) }
    | _ => none
  | .pumpChecks =>
    match s.pump with
    | .checking item => some { s with pump := if s.stop then .finished else .putting item }
    | .looping => some { s with pump := if s.stop then .checking .completed else .reading }
    | _ => none
  | .pumpPuts =>
    match s.pump, s.queue with
    | .putting item, none => some { s with pump := afterPut item, queue := some item }
    | _, _ => none
  | .pumpTimesOut =>
    match s.pump, s.queue with
    | .putting item, some _ => some { s with pump := .checking item }
    | _, _ => none
  | .pumpReads succeeds =>
    match s.pump with
    | .reading =>
      some (if succeeds then
        { s with pump := .checking (nextItem (s.rest.take batchSize)), rest := s.rest.drop batchSize }
      else { s with pump := .checking .error })
    | _ => none
  | .getBegins =>
    match s.get with
    | some .submitted => some { s with get := some .running }
    | _ => none
  | .getTakes =>
    match s.get, s.queue with
    | some .running, some item => some { s with get := some (.got item), queue := none }
    | _, _ => none
  | .getReturns =>
    match s.reader, s.get with
    | .getting, some (.got item) => some (s.receive item)
    | _, _ => none
  | .batchHandled =>
    match s.reader with
    | .handling => some { s with reader := .getting, get := some .submitted }
    | _ => none
  | .raised =>
    match s.reader with
    | .handling => some { s with reader := .finalising, stop := true }
    | _ => none
  | .cancelled =>
    match s.reader with
    | .getting => some { s with reader := .finalising, stop := true, get := cancelGet s.get }
    | .handling => some { s with reader := .finalising, stop := true }
    | .joining => some { s with reader := .finalised, stop := true, pump := cancelPump s.pump }
    | .finalising => some { s with reader := .finalised, pump := cancelPump s.pump }
    | .finalised => none
  | .joined =>
    match s.reader, s.pump with
    | .joining, .finished => some { s with reader := .finalised, stop := true }
    | .finalising, .finished => some { s with reader := .finalised }
    | _, _ => none

/-! ## The law -/

def Item.rows : Item ρ → List ρ
  | .batch rows => rows
  | .started | .completed | .error => []

/-- The item that the pump is about to put. -/
def PumpPc.item : PumpPc ρ → Option (Item ρ)
  | .checking item | .putting item => some item
  | .scheduled | .starting | .looping | .reading | .finished => none

def GetPc.item : GetPc ρ → Option (Item ρ)
  | .got item => some item
  | .submitted | .running => none

def itemRows (item : Option (Item ρ)) : List ρ := item.elim [] Item.rows

/-- The rows on the way from the result to the coroutine. -/
def State.inFlight (s : State ρ) : List ρ :=
  itemRows (s.get.bind GetPc.item) ++ itemRows s.queue ++ itemRows s.pump.item

/-- **The batches reach the coroutine in order.** As long as it reads, the rows that have not
reached it are on the way or have not been read; when it awaits the pump for the last time, it
has them all. -/
structure Delivers (result : List ρ) (s : State ρ) : Prop where
  received : s.received.flatten <+: result
  reading : s.reader.Reading → result = s.received.flatten ++ (s.inFlight ++ s.rest)
  joining : s.reader = .joining → s.received.flatten = result

/-- **A get is blocked for ever.** -/
def Stuck (s : State ρ) : Prop :=
  s.reader = .finalised ∧ s.get = some .running ∧ s.queue = none ∧ s.pump = .finished

/-- **The coroutine is not cancelled while a get is blocked on the empty queue**, unless the
pump is already putting an item. -/
def CancelledSafely (s : State ρ) : Event → Prop
  | .cancelled =>
    s.reader = .getting → s.get = some .running → s.queue = none →
      ∃ item, s.pump = .putting item
  | _ => True

/-! ## What a step keeps -/

/-- What holds as long as the coroutine reads. The end of the result is put after everything
else, by a pump that then stops. -/
structure Flow (result : List ρ) (s : State ρ) : Prop where
  rows : result = s.received.flatten ++ (s.inFlight ++ s.rest)
  running : s.stop = false
  pumpEnd : s.pump.item = some .completed → s.rest = []
  queueEnd : s.queue = some .completed → s.rest = [] ∧ s.pump = .finished
  getEnd : s.get = some (.got .completed) → s.rest = [] ∧ s.queue = none ∧ s.pump = .finished
  idle : s.reader ≠ .getting → s.get = none
  joining : s.reader = .joining → s.received.flatten = result

/-- **The invariant**, the last part of which is for coroutines that are cancelled safely. -/
structure Held (safe : Prop) (result : List ρ) (s : State ρ) : Prop where
  received : s.received.flatten <+: result
  flow : s.reader.Reading → Flow result s
  begun : ¬ s.reader.Reading → s.get ≠ some .submitted
  orphan : safe → ¬ s.reader.Reading → s.get = some .running →
    s.queue ≠ none ∨ ∃ item, s.pump = .putting item

theorem rows_nextItem (rows : List ρ) : (nextItem rows).rows = rows := by
  cases rows <;> rfl

theorem cancelGet_ne_submitted (get : Option (GetPc ρ)) : cancelGet get ≠ some .submitted := by
  cases get with
  | none => nofun
  | some get => cases get <;> nofun

theorem eq_running_of_cancelGet {get : Option (GetPc ρ)} (h : cancelGet get = some .running) :
    get = some .running := by
  cases get with
  | none => cases h
  | some get => cases get <;> first | rfl | cases h

namespace Held

variable {safe : Prop} {result : List ρ} {s t : State ρ} {batchSize : ℕ}

/-- **The pump goes on without putting anything.** As long as the coroutine reads, no row is
lost. -/
theorem pumpMoves (h : Held safe result s) (pump : PumpPc ρ) (rest : List ρ)
    (hrunning : s.pump ≠ .finished) (hputting : s.queue = none → ∀ item, s.pump ≠ .putting item)
    (hrows : Flow result s → itemRows pump.item ++ rest = itemRows s.pump.item ++ s.rest)
    (hend : Flow result s → pump.item = some .completed → rest = []) :
    Held safe result { s with pump := pump, rest := rest } := by
  refine ⟨h.received, fun hr => ?_, h.begun, fun hs hr hget => .inl (fun hq => ?_)⟩
  · have hf := h.flow hr
    have hflight := hf.rows
    rw [State.inFlight, List.append_assoc, ← hrows hf] at hflight
    refine
      { rows := ?_
        running := hf.running
        pumpEnd := hend hf
        queueEnd := fun hq => absurd (hf.queueEnd hq).2 hrunning
        getEnd := fun hg => absurd (hf.getEnd hg).2.2 hrunning
        idle := hf.idle
        joining := hf.joining }
    rw [hflight, State.inFlight, ← List.append_assoc (itemRows _ ++ itemRows _)]
  · obtain ⟨item, hitem⟩ := (h.orphan hs hr hget).resolve_left (fun hne => hne hq)
    exact hputting hq item hitem

/-- The pump looks at the flag. -/
theorem pumpChecks (h : Held safe result s) (ht : step batchSize s .pumpChecks = some t) :
    Held safe result t := by
  unfold step at ht
  dsimp only at ht
  split at ht
  · rename_i item hpump
    obtain rfl := Option.some.inj ht
    refine h.pumpMoves _ s.rest (by simp [hpump]) (by simp [hpump]) (fun hf => ?_)
      (fun hf hitem => ?_)
    · simp [hpump, hf.running, PumpPc.item]
    · refine hf.pumpEnd ?_
      rw [hf.running] at hitem
      rw [hpump]
      exact hitem
  · rename_i hpump
    obtain rfl := Option.some.inj ht
    refine h.pumpMoves _ s.rest (by simp [hpump]) (by simp [hpump]) (fun hf => ?_)
      (fun hf hitem => ?_)
    · simp [hpump, hf.running, PumpPc.item]
    · rw [hf.running] at hitem
      cases hitem
  · cases ht

/-- The pump reads a batch, the end of the result, or fails to. -/
theorem pumpReads (h : Held safe result s) (hbatch : 0 < batchSize) {succeeds : Bool}
    (ht : step batchSize s (.pumpReads succeeds) = some t) : Held safe result t := by
  unfold step at ht
  dsimp only at ht
  split at ht
  · rename_i hpump
    obtain rfl := Option.some.inj ht
    cases succeeds with
    | false =>
      exact h.pumpMoves (.checking .error) s.rest (by simp [hpump]) (by simp [hpump])
        (by simp [hpump, PumpPc.item, itemRows, Item.rows]) (by simp [PumpPc.item])
    | true =>
      refine h.pumpMoves (.checking (nextItem (s.rest.take batchSize))) (s.rest.drop batchSize)
        (by simp [hpump]) (by simp [hpump]) (fun _ => ?_) (fun _ hitem => ?_)
      · show (nextItem _).rows ++ _ = _
        rw [rows_nextItem, List.take_append_drop, hpump]
        rfl
      · have htake : s.rest.take batchSize = [] := by
          cases hrows : s.rest.take batchSize with
          | nil => rfl
          | cons row rows =>
            rw [hrows] at hitem
            cases hitem
        -- a batch is empty at the end of the result only
        rcases List.take_eq_nil_iff.1 htake with hzero | hnil
        · exact absurd hzero hbatch.ne'
        · rw [hnil, List.drop_nil]
  · cases ht

/-- **The pump puts an item** after which nothing comes, if it is the end. -/
theorem pumpPuts (h : Held safe result s) (ht : step batchSize s .pumpPuts = some t) :
    Held safe result t := by
  unfold step at ht
  dsimp only at ht
  split at ht
  · rename_i item hpump hqueue
    obtain rfl := Option.some.inj ht
    refine ⟨h.received, fun hr => ?_, h.begun, fun _ _ _ => .inl nofun⟩
    have hf := h.flow hr
    have hafter : (afterPut item).item = none := by cases item <;> rfl
    refine
      { rows := ?_
        running := hf.running
        pumpEnd := fun hitem => ?_
        queueEnd := fun hq => ?_
        getEnd := fun hg => absurd (hf.getEnd hg).2.2 (by simp [hpump])
        idle := hf.idle
        joining := hf.joining }
    · rw [hf.rows, State.inFlight, State.inFlight, hafter, hpump, hqueue]
      simp [PumpPc.item, itemRows]
    · rw [hafter] at hitem
      cases hitem
    · obtain rfl := Option.some.inj hq
      refine ⟨hf.pumpEnd ?_, rfl⟩
      rw [hpump]
      rfl
  · cases ht

/-- A thread takes a get up. -/
theorem getBegins (h : Held safe result s) (ht : step batchSize s .getBegins = some t) :
    Held safe result t := by
  unfold step at ht
  dsimp only at ht
  split at ht
  · rename_i hget
    obtain rfl := Option.some.inj ht
    have hreading : s.reader.Reading := by
      by_contra hr
      exact h.begun hr hget
    have hf := h.flow hreading
    refine ⟨h.received, fun _ => ?_, fun hr => absurd hreading hr,
      fun _ hr => absurd hreading hr⟩
    refine
      { rows := ?_
        running := hf.running
        pumpEnd := hf.pumpEnd
        queueEnd := hf.queueEnd
        getEnd := nofun
        idle := fun hne => ?_
        joining := hf.joining }
    · have hrows := hf.rows
      rw [State.inFlight, hget] at hrows
      exact hrows
    · have hnone := hf.idle hne
      rw [hget] at hnone
      cases hnone
  · cases ht

/-- A get takes the item out of the queue. -/
theorem getTakes (h : Held safe result s) (ht : step batchSize s .getTakes = some t) :
    Held safe result t := by
  unfold step at ht
  dsimp only at ht
  split at ht
  · rename_i item hget hqueue
    obtain rfl := Option.some.inj ht
    refine ⟨h.received, fun hr => ?_, fun _ => nofun, fun _ _ => nofun⟩
    have hf := h.flow hr
    refine
      { rows := ?_
        running := hf.running
        pumpEnd := hf.pumpEnd
        queueEnd := nofun
        getEnd := fun hg => ?_
        idle := fun hne => ?_
        joining := hf.joining }
    · have hrows := hf.rows
      rw [State.inFlight, hget, hqueue] at hrows
      rw [hrows, State.inFlight]
      simp [GetPc.item, itemRows]
    · obtain rfl := GetPc.got.inj (Option.some.inj hg)
      exact ⟨(hf.queueEnd hqueue).1, rfl, (hf.queueEnd hqueue).2⟩
    · have hnone := hf.idle hne
      rw [hget] at hnone
      cases hnone
  · cases ht

/-- **The coroutine is told of an item**, the oldest of those on the way. -/
theorem getReturns (h : Held safe result s) (ht : step batchSize s .getReturns = some t) :
    Held safe result t := by
  unfold step at ht
  dsimp only at ht
  split at ht
  · rename_i item hreader hget
    obtain rfl := Option.some.inj ht
    have hreading : s.reader.Reading := by rw [hreader]; trivial
    have hf := h.flow hreading
    have hrows := hf.rows
    rw [State.inFlight, hget] at hrows
    cases item with
    | started =>
      refine ⟨h.received, fun _ => ?_, fun hr => absurd hreading hr,
        fun _ hr => absurd hreading hr⟩
      exact
        { rows := hrows
          running := hf.running
          pumpEnd := hf.pumpEnd
          queueEnd := hf.queueEnd
          getEnd := nofun
          idle := fun hne => absurd hreader hne
          joining := hf.joining }
    | batch rows =>
      have hrows' : result = (s.received ++ [rows]).flatten
          ++ (itemRows s.queue ++ itemRows s.pump.item ++ s.rest) := by
        rw [hrows]
        simp [GetPc.item, itemRows, Item.rows]
      refine ⟨?_, fun _ => ?_, fun hr => absurd trivial hr, fun _ hr => absurd trivial hr⟩
      · exact ⟨_, hrows'.symm⟩
      · exact
          { rows := hrows'
            running := hf.running
            pumpEnd := hf.pumpEnd
            queueEnd := hf.queueEnd
            getEnd := nofun
            idle := fun _ => rfl
            joining := nofun }
    | completed =>
      obtain ⟨hrest, hqueue, hpump⟩ := hf.getEnd hget
      have hall : s.received.flatten = result := by
        rw [hrows, hqueue, hpump, hrest]
        simp [GetPc.item, itemRows, Item.rows, PumpPc.item]
      refine ⟨h.received, fun _ => ?_, fun hr => absurd trivial hr, fun _ hr => absurd trivial hr⟩
      exact
        { rows := hrows
          running := hf.running
          pumpEnd := hf.pumpEnd
          queueEnd := hf.queueEnd
          getEnd := nofun
          idle := fun _ => rfl
          joining := fun _ => hall }
    | error => exact ⟨h.received, fun hr => hr.elim, fun _ => nofun, fun _ _ => nofun⟩
  · cases ht

/-- The next get is submitted. -/
theorem batchHandled (h : Held safe result s) (ht : step batchSize s .batchHandled = some t) :
    Held safe result t := by
  unfold step at ht
  dsimp only at ht
  split at ht
  · rename_i hreader
    obtain rfl := Option.some.inj ht
    have hf := h.flow (by rw [hreader]; trivial)
    have hget : s.get = none := hf.idle (by rw [hreader]; nofun)
    refine ⟨h.received, fun _ => ?_, fun hr => absurd trivial hr, fun _ hr => absurd trivial hr⟩
    refine
      { rows := ?_
        running := hf.running
        pumpEnd := hf.pumpEnd
        queueEnd := hf.queueEnd
        getEnd := nofun
        idle := fun hne => absurd rfl hne
        joining := nofun }
    have hrows := hf.rows
    rw [State.inFlight, hget] at hrows
    exact hrows
  · cases ht

/-- **The coroutine stops reading**, without a get. -/
theorem ends (h : Held safe result s) (reader : ReaderPc) (stop : Bool) (pump : PumpPc ρ)
    (hnot : ¬ reader.Reading) (hget : s.get = none) :
    Held safe result { s with reader := reader, stop := stop, pump := pump } := by
  refine ⟨h.received, fun hr => absurd hr hnot, fun _ hsubmitted => ?_, fun _ _ hrunning => ?_⟩
  · exact absurd (hget.symm.trans hsubmitted) nofun
  · exact absurd (hget.symm.trans hrunning) nofun

theorem raised (h : Held safe result s) (ht : step batchSize s .raised = some t) :
    Held safe result t := by
  unfold step at ht
  dsimp only at ht
  split at ht
  · rename_i hreader
    obtain rfl := Option.some.inj ht
    have hf := h.flow (by rw [hreader]; trivial)
    exact h.ends .finalising true s.pump id (hf.idle (by rw [hreader]; nofun))
  · cases ht

/-- **The coroutine is cancelled**: if that is safe, a get that goes on will have an item. -/
theorem cancelled (h : Held safe result s) (hsafe : safe → CancelledSafely s .cancelled)
    (ht : step batchSize s .cancelled = some t) : Held safe result t := by
  unfold step at ht
  dsimp only at ht
  split at ht
  · rename_i hreader
    obtain rfl := Option.some.inj ht
    refine ⟨h.received, fun hr => hr.elim, fun _ => cancelGet_ne_submitted s.get,
      fun hs _ hget => ?_⟩
    have hrunning : s.get = some .running := eq_running_of_cancelGet hget
    by_cases hqueue : s.queue = none
    · exact .inr (hsafe hs hreader hrunning hqueue)
    · exact .inl hqueue
  · rename_i hreader
    obtain rfl := Option.some.inj ht
    have hf := h.flow (by rw [hreader]; trivial)
    exact h.ends .finalising true s.pump id (hf.idle (by rw [hreader]; nofun))
  · rename_i hreader
    obtain rfl := Option.some.inj ht
    have hf := h.flow (by rw [hreader]; trivial)
    exact h.ends .finalised true _ id (hf.idle (by rw [hreader]; nofun))
  · rename_i hreader
    obtain rfl := Option.some.inj ht
    have hnot : ¬ s.reader.Reading := by rw [hreader]; exact id
    refine ⟨h.received, fun hr => hr.elim, fun _ => h.begun hnot, fun hs _ hget => ?_⟩
    refine (h.orphan hs hnot hget).imp_right (fun ⟨item, hitem⟩ => ⟨item, ?_⟩)
    -- a pump that is putting an item has begun
    show cancelPump s.pump = _
    rw [hitem]
    rfl
  · cases ht

theorem joined (h : Held safe result s) (ht : step batchSize s .joined = some t) :
    Held safe result t := by
  unfold step at ht
  dsimp only at ht
  split at ht
  · rename_i hreader _
    obtain rfl := Option.some.inj ht
    have hf := h.flow (by rw [hreader]; trivial)
    exact h.ends .finalised true s.pump id (hf.idle (by rw [hreader]; nofun))
  · rename_i hreader _
    obtain rfl := Option.some.inj ht
    have hnot : ¬ s.reader.Reading := by rw [hreader]; exact id
    exact ⟨h.received, fun hr => hr.elim, fun _ => h.begun hnot, fun hs _ => h.orphan hs hnot⟩
  · cases ht

/-- The pump begins, or its query does. -/
theorem pumpBegins (h : Held safe result s) (ht : step batchSize s .pumpBegins = some t) :
    Held safe result t := by
  unfold step at ht
  dsimp only at ht
  split at ht
  · rename_i hpump
    obtain rfl := Option.some.inj ht
    exact h.pumpMoves .starting s.rest (by simp [hpump]) (by simp [hpump])
      (by simp [hpump, PumpPc.item]) (by simp [PumpPc.item])
  · cases ht

theorem queryStarts (h : Held safe result s) {succeeds : Bool}
    (ht : step batchSize s (.queryStarts succeeds) = some t) : Held safe result t := by
  unfold step at ht
  dsimp only at ht
  split at ht
  · rename_i hpump
    obtain rfl := Option.some.inj ht
    refine h.pumpMoves _ s.rest (by simp [hpump]) (by simp [hpump]) (fun _ => ?_) (fun _ => ?_)
    all_goals cases succeeds <;> simp [hpump, PumpPc.item, itemRows, Item.rows]
  · cases ht

theorem pumpTimesOut (h : Held safe result s) (ht : step batchSize s .pumpTimesOut = some t) :
    Held safe result t := by
  unfold step at ht
  dsimp only at ht
  split at ht
  · rename_i item _ hpump hqueue
    obtain rfl := Option.some.inj ht
    refine h.pumpMoves (.checking item) s.rest (by simp [hpump]) (by simp [hqueue]) (fun _ => ?_)
      (fun hf hitem => hf.pumpEnd ?_)
    · simp [hpump, PumpPc.item]
    · rw [hpump]
      exact hitem
  · cases ht

/-- **Every step keeps the invariant.** -/
theorem step (h : Held safe result s) (hbatch : 0 < batchSize) {e : Event}
    (hsafe : safe → CancelledSafely s e) (ht : BigQueryPump.step batchSize s e = some t) :
    Held safe result t := by
  cases e with
  | pumpBegins => exact h.pumpBegins ht
  | queryStarts succeeds => exact h.queryStarts ht
  | pumpChecks => exact h.pumpChecks ht
  | pumpPuts => exact h.pumpPuts ht
  | pumpTimesOut => exact h.pumpTimesOut ht
  | pumpReads succeeds => exact h.pumpReads hbatch ht
  | getBegins => exact h.getBegins ht
  | getTakes => exact h.getTakes ht
  | getReturns => exact h.getReturns ht
  | batchHandled => exact h.batchHandled ht
  | raised => exact h.raised ht
  | cancelled => exact h.cancelled hsafe ht
  | joined => exact h.joined ht

theorem init (safe : Prop) (result : List ρ) : Held safe result { rest := result } where
  received := List.nil_prefix
  flow := fun _ =>
    { rows := rfl
      running := rfl
      pumpEnd := nofun
      queueEnd := nofun
      getEnd := nofun
      idle := fun hne => absurd rfl hne
      joining := nofun }
  begun := fun hr => absurd trivial hr
  orphan := fun _ hr => absurd trivial hr

theorem delivers (h : Held safe result s) : Delivers result s where
  received := h.received
  reading := fun hr => (h.flow hr).rows
  joining := fun hj => (h.flow (by rw [hj]; trivial)).joining hj

theorem not_stuck (h : Held True result s) : ¬ Stuck s := by
  rintro ⟨hreader, hget, hqueue, hpump⟩
  rcases h.orphan trivial (by rw [hreader]; exact id) hget with hne | ⟨item, hitem⟩
  · exact hne hqueue
  · rw [hpump] at hitem
    cases hitem

end Held

/-! ## Every run -/

/-- **The batches reach the coroutine in order, in every run**, and no get is blocked for ever
in one in which it is cancelled safely. -/
theorem allStates_delivers_and_not_stuck {batchSize : ℕ} (hbatch : 0 < batchSize)
    (result : List ρ) (es : List Event) :
    AllStates (step batchSize) (Delivers result) { rest := result } es
      ∧ (AllSteps (step batchSize) (fun s e _ => CancelledSafely s e) { rest := result } es →
        AllStates (step batchSize) (fun s => ¬ Stuck s) { rest := result } es) := by
  constructor
  · exact (allStates_of_invariant (fun s e t hs ht => hs.step hbatch False.elim ht)
      (Held.init False result) es).mono (fun s hs => hs.delivers)
  · intro hsafe
    exact (allStates_of_step (fun s e t hs hsafe ht => hs.step hbatch (fun _ => hsafe) ht)
      (Held.init True result) hsafe).mono (fun s hs => hs.not_stuck)

/-- The coroutine is cancelled while the pump puts its first item. -/
def cancelledLate : List Event :=
  [.pumpBegins, .getBegins, .queryStarts true, .pumpChecks, .cancelled, .pumpPuts, .getTakes,
    .pumpChecks, .pumpChecks, .joined]

/-- All rows come through up to then, and the coroutine is not stuck. -/
theorem allStates_delivers_and_not_stuck_cancelledLate :
    AllStates (step 2) (Delivers [1, 2, 3]) { rest := [1, 2, 3] } cancelledLate
      ∧ AllStates (step 2) (fun s => ¬ Stuck s) { rest := [1, 2, 3] } cancelledLate := by
  obtain ⟨hdelivers, hstuck⟩ :=
    allStates_delivers_and_not_stuck (by decide : 0 < 2) [1, 2, 3] cancelledLate
  refine ⟨hdelivers, hstuck ?_⟩
  simp [AllSteps, cancelledLate, step, CancelledSafely]

/-- The coroutine is cancelled while the query has not started. -/
def cancelledEarly : List Event :=
  [.pumpBegins, .getBegins, .cancelled, .queryStarts true, .pumpChecks, .joined]

/-- Its get waits for an item that the pump does not put. -/
theorem not_allStates_not_stuck_cancelledEarly :
    ¬ AllStates (step 2) (fun s => ¬ Stuck s) { rest := [1, 2, 3] } cancelledEarly := by
  intro h
  refine h.last rfl ?_
  exact ⟨rfl, rfl, rfl, rfl⟩

end BigQueryPump

import AgoraPlugins.Machine
import AgoraPlugins.PartitionedLog
import AgoraPlugins.Kafka.Cursor
import AgoraPlugins.Kafka.DlqCompaction

/-!
# Scanning the Kafka DLQ

A scan of the topic waits until partitions are assigned to its consumer, asks for the ends of
their logs, the high-water marks, and reads on until it has come to all of them, or until some
polls in a row had no messages. What it reads it folds, and in the end it takes what is live.

Nothing about the polls is up to the scan: how many messages there are in each, of which
partitions, whether the poll that gets the assignment has some already – they are kept and folded
first – and what is appended to the topic meanwhile. What the scan finds does not depend on it
(`live_of_highwater`): when it stops at the marks, it has folded of each partition the log from
where it began, all that was there at first included; and if the messages of a key are in one
partition, the record of the key is live just if the last of them in that segment is a put.

Two things are needed. A scan that gives up with no messages in some polls has read what it has
read. And start offsets are sought when the partitions are there: what a poll had before is folded
all the same, and the consumer is moved from where it had come to.
-/

open Machine

namespace Dlq

open KafkaPayloads

/-- **The settings of a source**, as they are accepted. -/
structure KafkaDLQSource where
  pipelineId : Option String
  stage : Option String
  limit : Option ℕ
  scanIdlePolls : ℕ
  stopAtHighwater : Bool
  startOffsets : OffsetMap
  compactionSpillThreshold : Option ℤ
  payloadPolicy : Option DLQPayloadPolicy
  limit_pos : ∀ n ∈ limit, 1 ≤ n
  scanIdlePolls_pos : 1 ≤ scanIdlePolls

namespace KafkaDLQSource

/-- An answer of `getmany`: the messages of some partitions, with their offsets. -/
abbrev Batches := List (TopicPartition × List (ℤ × String))

/-- The messages of an answer, in the order in which they are folded. -/
def messages (batches : Batches) : List (TopicPartition × ℤ × String) :=
  batches.flatMap (fun batch => batch.2.map (fun m => (batch.1, m)))

/-- Where a scan is. -/
inductive Pc (δ : Type) where
  /-- it awaits a poll that may get the assignment, with so many to follow -/
  | waiting (polls : ℕ)
  /-- it awaits the ends of the logs -/
  | marking
  /-- it awaits the next poll, after so many without messages -/
  | scanning (idlePolls : ℕ)
  /-- nothing has been assigned to it -/
  | unassigned
  /-- it has found these, at the high-water marks or after idle polls -/
  | finished (highwater : Bool) (live : List (ℕ × DLQRecord δ))
  | failed (e : Exc)

/-- **A scan**, its consumer and the logs of the topic. What it has folded, and where it began to
read each partition, is recorded for nobody. -/
structure State (δ : Type) where
  log : PartitionedLog TopicPartition String
  assignment : List TopicPartition
  position : TopicPartition → ℤ
  pc : Pc δ
  prefetch : List Batches := []
  /-- `highwater_offsets` -/
  marks : List (TopicPartition × ℤ) := []
  compaction : ℕ × KafkaDLQCompactionState δ := (0, {})
  started : TopicPartition → ℤ
  folded : List (TopicPartition × ℤ × String) := []

/-- What comes next. -/
inductive Event where
  /-- a message is appended, after some offsets that are left out -/
  | appended (tp : TopicPartition) (gap : ℕ) (value : String)
  /-- partitions are assigned, to be read from these positions -/
  | assigned (partitions : List TopicPartition) (position : TopicPartition → ℤ)
  /-- a poll is answered: these partitions are read up to these offsets -/
  | polled (reads : List (TopicPartition × ℤ))
  /-- the ends of the logs are known -/
  | marked
  /-- `end_offsets` raises -/
  | unmarked
  /-- an answer that was kept is taken -/
  | prefetched

variable {δ : Type} (py : Python δ) (digest : Payload → String) (src : KafkaDLQSource)

/-! ## The consumer -/

/-- A partition is read up to an offset. -/
def State.read (s : State δ) (tp : TopicPartition) (offset : ℤ) :
    Option (List (ℤ × String) × State δ) :=
  if tp ∈ s.assignment ∧ s.position tp ≤ offset ∧ offset ≤ s.log.endOffset tp then
    some (s.log.segment tp (s.position tp) offset,
      { s with position := fun q => if q = tp then offset else s.position q })
  else none

/-- **`getmany`** answers with the messages of the partitions that have some. -/
def State.getmany : State δ → List (TopicPartition × ℤ) → Option (Batches × State δ)
  | s, [] => some ([], s)
  | s, (tp, offset) :: reads => do
    let (ms, s) ← s.read tp offset
    let (batches, s) ← s.getmany reads
    pure (if ms = [] then batches else (tp, ms) :: batches, s)

/-- `positions_reached_highwater`. -/
def State.reachedHighwater (s : State δ) : Bool :=
  s.marks.all (fun m => m.2 ≤ s.position m.1)

/-! ## The scan -/

/-- The records that are live are found. -/
def finish (s : State δ) (highwater : Bool) : State δ :=
  match liveRecords py src.payloadPolicy s.compaction.2 with
  | .ok live => { s with pc := .finished highwater live }
  | .error e => { s with pc := .failed e }

/-- **One iteration of the loop**: an answer is folded. -/
def iterate (s : State δ) (idlePolls : ℕ) (batches : Batches) : State δ :=
  match ((messages batches).map (fun m => m.2.2)).foldlM
      (scanMessage py src.payloadPolicy digest src.compactionSpillThreshold) s.compaction with
  | .error e => { s with pc := .failed e }
  | .ok compaction =>
    let s := { s with compaction, folded := s.folded ++ messages batches }
    let idlePolls := if messages batches = [] then idlePolls + 1 else 0
    if s.marks ≠ [] ∧ s.reachedHighwater = true then src.finish py s true
    else if idlePolls < src.scanIdlePolls then { s with pc := .scanning idlePolls }
    else src.finish py s false

/-- `apply_start_offsets`, with partitions assigned; a partition that is not cannot be sought.
Then the ends of the logs are asked for. -/
def startScan (s : State δ) : State δ :=
  if src.startOffsets.keys.all (fun tp => tp ∈ s.assignment) then
    { s with
      position := fun tp => (src.startOffsets.lookup tp).getD (s.position tp)
      started := fun tp => (src.startOffsets.lookup tp).getD (s.started tp)
      pc := if src.stopAtHighwater then .marking else .scanning 0 }
  else
    { s with pc := .failed (.exception "IllegalStateError" "No current assignment for partition") }

/-- **`wait_for_assignment`**, with so many rounds left. -/
def waitForAssignment (s : State δ) : ℕ → State δ
  | 0 => { s with pc := .unassigned }
  | polls + 1 =>
    if s.assignment ≠ [] then src.startScan s else { s with pc := .waiting polls }

/-- **A scan begins**, with what its consumer has. -/
def begin (log : PartitionedLog TopicPartition String) (assignment : List TopicPartition)
    (position : TopicPartition → ℤ) : State δ :=
  src.waitForAssignment { log, assignment, position, pc := .unassigned, started := position } 20

/-- **One step** of the scan, or of the topic. -/
def step (s : State δ) : Event → Option (State δ)
  | .appended tp gap value => some { s with log := s.log.append tp gap value }
  | .assigned partitions position =>
    match s.pc with
    | .waiting _ =>
      if s.assignment = [] then
        some { s with assignment := partitions, position, started := position }
      else none
    | _ => none
  | .polled reads =>
    match s.pc with
    | .waiting polls =>
      (s.getmany reads).map (fun (batches, s) => src.waitForAssignment
        { s with prefetch := if batches = [] then s.prefetch else s.prefetch ++ [batches] } polls)
    | .scanning idlePolls =>
      if s.prefetch = [] then
        (s.getmany reads).map (fun (batches, s) => src.iterate py digest s idlePolls batches)
      else none
    | _ => none
  | .marked =>
    match s.pc with
    | .marking => some { s with
        marks := s.assignment.map (fun tp => (tp, s.log.endOffset tp))
        pc := .scanning 0 }
    | _ => none
  | .unmarked =>
    match s.pc with
    | .marking => some { s with marks := [], pc := .scanning 0 }
    | _ => none
  | .prefetched =>
    match s.pc, s.prefetch with
    | .scanning idlePolls, batches :: prefetch =>
      some (src.iterate py digest { s with prefetch } idlePolls batches)
    | _, _ => none

/-- A record that the filters let through. -/
def passes (r : DLQRecord δ) : Bool :=
  src.pipelineId.all (fun pipelineId => r.pipelineId = pipelineId)
    && src.stage.all (fun stage => r.stage = stage)

/-- The records that `iter_records` yields of those that are live. -/
def yields (live : List (ℕ × DLQRecord δ)) : List (DLQRecord δ) :=
  let matched := (live.map Prod.snd).filter src.passes
  match src.limit with
  | none => matched
  | some limit => matched.take limit

/-- **`stream`**: those of them that may be tried again. -/
def stream (live : List (ℕ × DLQRecord δ)) : List (DLQRecord δ) :=
  (src.yields live).filter (fun r => r.maxAttempts.all (fun n => r.attempt < n))

/-! ## What has been read -/

variable {py digest src} {s t : State δ}

/-- What a scan has read and not folded. -/
def State.kept (s : State δ) : List (TopicPartition × ℤ × String) := s.prefetch.flatMap messages

theorem State.kept_of_prefetch_eq_nil (h : s.prefetch = []) : s.kept = [] := by
  unfold State.kept
  rw [h]
  rfl

/-- **What has been read of a partition** is the log of it, from where the scan began to where it
is. -/
structure State.Reads (s : State δ) (ms : List (TopicPartition × ℤ × String)) : Prop where
  segment : ∀ tp, PartitionedLog.ofPartition tp ms
    = s.log.segment tp (s.started tp) (s.position tp)
  started : ∀ tp, s.started tp ≤ s.position tp
  bound : ∀ tp, s.position tp ≤ s.log.endOffset tp ∨ s.position tp = s.started tp

/-- With nothing read, a scan is where it began. -/
theorem reads_nil (h : s.position = s.started) : s.Reads [] := by
  refine ⟨fun tp => ?_, fun tp => ?_, fun tp => .inr (congrFun h tp)⟩
  · rw [h]
    exact (PartitionedLog.segment_self tp _).symm
  · rw [h]

/-- One partition has been read on. -/
theorem State.Reads.read {ms : List (TopicPartition × ℤ × String)} (hs : s.Reads ms)
    (hlog : s.log.Sorted) {tp : TopicPartition} {offset : ℤ} {batch : List (ℤ × String)}
    (h : s.read tp offset = some (batch, t)) :
    t.Reads (ms ++ batch.map (fun m => (tp, m))) := by
  unfold State.read at h
  rw [Option.ite_none_right_eq_some, Option.some.injEq] at h
  obtain ⟨⟨_, hle, hend⟩, h⟩ := h
  cases h
  have hpos : ∀ q, (if q = tp then offset else s.position q) = offset ∧ q = tp
      ∨ (if q = tp then offset else s.position q) = s.position q ∧ q ≠ tp := by
    intro q
    by_cases hq : q = tp
    · exact .inl ⟨if_pos hq, hq⟩
    · exact .inr ⟨if_neg hq, hq⟩
  refine ⟨fun q => ?_, fun q => ?_, fun q => ?_⟩
  · rw [PartitionedLog.ofPartition_append, hs.segment, PartitionedLog.ofPartition_map]
    rcases hpos q with ⟨hq, rfl⟩ | ⟨hq, hne⟩
    · rw [if_pos rfl]
      show _ = s.log.segment q (s.started q) (if q = q then offset else s.position q)
      rw [if_pos rfl]
      exact PartitionedLog.segment_append_segment hlog (hs.started q) hle
    · rw [if_neg (Ne.symm hne), List.append_nil]
      show _ = s.log.segment q (s.started q) (if q = tp then offset else s.position q)
      rw [hq]
  · show s.started q ≤ if q = tp then offset else s.position q
    rcases hpos q with ⟨hq, rfl⟩ | ⟨hq, _⟩ <;> rw [hq]
    · exact Int.le_trans (hs.started q) hle
    · exact hs.started q
  · show (if q = tp then offset else s.position q) ≤ _
      ∨ (if q = tp then offset else s.position q) = _
    rcases hpos q with ⟨hq, rfl⟩ | ⟨hq, _⟩ <;> rw [hq]
    · exact .inl hend
    · exact hs.bound q

/-- What a poll changes. -/
theorem exists_of_getmany {reads : List (TopicPartition × ℤ)} {batches : Batches}
    (h : s.getmany reads = some (batches, t)) :
    ∃ position, t = { s with position } ∧ ∀ tp, s.position tp ≤ position tp := by
  induction reads generalizing s batches with
  | nil =>
    cases h
    exact ⟨_, rfl, fun _ => Int.le_refl _⟩
  | cons read reads ih =>
    obtain ⟨⟨ms, u⟩, hread, h⟩ := Option.bind_eq_some_iff.1 h
    obtain ⟨⟨rest, v⟩, hrest, h⟩ := Option.bind_eq_some_iff.1 h
    cases h
    unfold State.read at hread
    rw [Option.ite_none_right_eq_some, Option.some.injEq] at hread
    obtain ⟨⟨_, hle, _⟩, hread⟩ := hread
    cases hread
    obtain ⟨position, rfl, hposition⟩ := ih hrest
    refine ⟨position, rfl, fun tp => Int.le_trans ?_ (hposition tp)⟩
    show _ ≤ if tp = read.1 then read.2 else s.position tp
    split
    next heq => rw [heq]; exact hle
    next => exact Int.le_refl _

/-- **A poll reads on**, and answers with what it has read. -/
theorem State.Reads.getmany {ms : List (TopicPartition × ℤ × String)} (hs : s.Reads ms)
    (hlog : s.log.Sorted) {reads : List (TopicPartition × ℤ)} {batches : Batches}
    (h : s.getmany reads = some (batches, t)) : t.Reads (ms ++ messages batches) := by
  induction reads generalizing s batches ms with
  | nil =>
    cases h
    rw [show messages ([] : Batches) = [] from rfl, List.append_nil]
    exact hs
  | cons read reads ih =>
    obtain ⟨⟨batch, u⟩, hread, h⟩ := Option.bind_eq_some_iff.1 h
    obtain ⟨⟨rest, v⟩, hrest, h⟩ := Option.bind_eq_some_iff.1 h
    cases h
    have hu := hs.read hlog hread
    have hsorted : u.log.Sorted := by
      unfold State.read at hread
      rw [Option.ite_none_right_eq_some, Option.some.injEq] at hread
      obtain ⟨_, hread⟩ := hread
      cases hread
      exact hlog
    have hv := ih hu hsorted hrest
    rw [List.append_assoc] at hv
    split
    next hnil =>
      have hnil : batch = [] := hnil
      rw [hnil] at hv
      exact hv
    next => exact hv

/-- A poll of a consumer without partitions answers with nothing. -/
theorem eq_nil_of_getmany {reads : List (TopicPartition × ℤ)} {batches : Batches}
    (hnone : s.assignment = []) (h : s.getmany reads = some (batches, t)) : batches = [] := by
  cases reads with
  | nil => cases h; rfl
  | cons read reads =>
    obtain ⟨⟨ms, u⟩, hread, _⟩ := Option.bind_eq_some_iff.1 h
    unfold State.read at hread
    rw [Option.ite_none_right_eq_some, hnone] at hread
    exact absurd hread.1.1 List.not_mem_nil

/-! ## The invariant -/

variable (py digest src) in
/-- **How a scan stands**, when the logs ended here as it began. -/
structure State.Scanning (ends : TopicPartition → ℤ) (s : State δ) : Prop where
  sorted : s.log.Sorted
  grown : ∀ tp, ends tp ≤ s.log.endOffset tp
  reads : s.Reads (s.folded ++ s.kept)
  compaction : (s.folded.map (fun m => m.2.2)).foldlM
    (scanMessage py src.payloadPolicy digest src.compactionSpillThreshold) (0, {})
      = .ok s.compaction
  single : s.prefetch.length ≤ 1
  marks : s.marks ≠ [] → ∀ tp ∈ s.assignment, ∃ m, (tp, m) ∈ s.marks ∧ ends tp ≤ m

variable (py src) in
/-- What is so at some points of a scan: while it waits nothing has been read, and nothing is sought
then; when it has stopped at the marks, nothing it has read is left over. -/
structure State.Placed (s : State δ) : Prop where
  waiting : ∀ polls, s.pc = .waiting polls →
    s.prefetch = [] ∧ s.folded = [] ∧ s.marks = [] ∧ src.startOffsets.entries = []
  found : ∀ highwater live, s.pc = .finished highwater live →
    liveRecords py src.payloadPolicy s.compaction.2 = .ok live
      ∧ (highwater = true → s.prefetch = [] ∧ s.marks ≠ [] ∧ s.reachedHighwater = true)

variable (py digest src) in
/-- A scan that has not failed. -/
def State.Stands (ends : TopicPartition → ℤ) (s : State δ) : Prop :=
  (∀ e, s.pc ≠ .failed e) → s.Scanning py digest src ends ∧ s.Placed py src

variable {ends : TopicPartition → ℤ}

/-- Where no record is looked for yet and no partition waited for. -/
theorem placed_of_ne (hwaiting : ∀ polls, s.pc ≠ .waiting polls)
    (hfinished : ∀ highwater live, s.pc ≠ .finished highwater live) : s.Placed py src :=
  ⟨fun polls h => absurd h (hwaiting polls), fun hw live h => absurd h (hfinished hw live)⟩

/-- **What is appended** is not in what has been read. -/
theorem State.Scanning.append (hs : s.Scanning py digest src ends) (q : TopicPartition) (gap : ℕ)
    (value : String) :
    State.Scanning py digest src ends { s with log := s.log.append q gap value } := by
  have hend := PartitionedLog.endOffset_le_append s.log q gap value
  refine ⟨hs.sorted.append q gap value, fun tp => Int.le_trans (hs.grown tp) (hend tp), ?_,
    hs.compaction, hs.single, hs.marks⟩
  refine ⟨fun tp => (hs.reads.segment tp).trans ?_, hs.reads.started, fun tp => ?_⟩
  · show _ = (s.log.append q gap value).segment tp (s.started tp) (s.position tp)
    rcases hs.reads.bound tp with hle | heq
    · exact (PartitionedLog.segment_append q gap value hle).symm
    · rw [heq, PartitionedLog.segment_self, PartitionedLog.segment_self]
  · exact (hs.reads.bound tp).imp (fun hle => Int.le_trans hle (hend tp)) id

/-- Where the scan is does not matter to what it has read. -/
theorem State.Scanning.withPc (hs : s.Scanning py digest src ends) (pc : Pc δ) :
    State.Scanning py digest src ends { s with pc } :=
  ⟨hs.sorted, hs.grown, ⟨hs.reads.segment, hs.reads.started, hs.reads.bound⟩, hs.compaction,
    hs.single, hs.marks⟩

/-- The scan finds what is live. -/
theorem stands_finish (hs : s.Scanning py digest src ends) {highwater : Bool}
    (hmarks : highwater = true → s.prefetch = [] ∧ s.marks ≠ [] ∧ s.reachedHighwater = true) :
    (src.finish py s highwater).Stands py digest src ends := by
  unfold finish
  cases hlive : liveRecords py src.payloadPolicy s.compaction.2 with
  | error e => exact fun hne => absurd rfl (hne e)
  | ok live =>
    refine fun _ => ⟨hs.withPc _, nofun, fun highwater' live' h => ?_⟩
    cases h
    exact ⟨hlive, hmarks⟩

/-- **An iteration folds an answer**, the last one there is. -/
theorem stands_iterate {batches : Batches} (hsorted : s.log.Sorted)
    (hgrown : ∀ tp, ends tp ≤ s.log.endOffset tp) (hnil : s.prefetch = [])
    (hreads : s.Reads (s.folded ++ messages batches))
    (hcompaction : (s.folded.map (fun m => m.2.2)).foldlM
      (scanMessage py src.payloadPolicy digest src.compactionSpillThreshold) (0, {})
        = .ok s.compaction)
    (hmarks : s.marks ≠ [] → ∀ tp ∈ s.assignment, ∃ m, (tp, m) ∈ s.marks ∧ ends tp ≤ m)
    (idlePolls : ℕ) : (src.iterate py digest s idlePolls batches).Stands py digest src ends := by
  unfold iterate
  cases hfold : ((messages batches).map (fun m => m.2.2)).foldlM
      (scanMessage py src.payloadPolicy digest src.compactionSpillThreshold) s.compaction with
  | error e => exact fun hne => absurd rfl (hne e)
  | ok compaction =>
    dsimp only
    have hkept : ∀ pc : Pc δ, State.Scanning py digest src ends
        { s with compaction, folded := s.folded ++ messages batches, pc } := by
      intro pc
      refine ⟨hsorted, hgrown, ?_, ?_, ?_, hmarks⟩
      · have hrest : State.kept { s with
            compaction, folded := s.folded ++ messages batches, pc } = [] :=
          State.kept_of_prefetch_eq_nil hnil
        rw [hrest, List.append_nil]
        exact ⟨hreads.segment, hreads.started, hreads.bound⟩
      · rw [List.map_append, List.foldlM_append, hcompaction]
        exact hfold
      · rw [hnil]
        exact Nat.zero_le 1
    generalize (if messages batches = [] then idlePolls + 1 else 0) = idlePolls
    split
    next h => exact stands_finish (hkept s.pc) (fun _ => ⟨hnil, h⟩)
    next =>
      split
      next => exact fun _ => ⟨hkept _, placed_of_ne nofun nofun⟩
      next => exact stands_finish (hkept s.pc) nofun

/-- **The start offsets are sought** before anything has been read, or there are none. -/
theorem stands_startScan (hs : s.Scanning py digest src ends)
    (hstart : src.startOffsets.entries = [] ∨ s.position = s.started ∧ s.folded ++ s.kept = []) :
    (src.startScan s).Stands py digest src ends := by
  unfold startScan
  split
  next =>
    refine fun _ => ⟨⟨hs.sorted, hs.grown, ?_, hs.compaction, hs.single, hs.marks⟩, ?_⟩
    · rcases hstart with hnone | ⟨heq, hnil⟩
      · have hlookup : ∀ tp, src.startOffsets.lookup tp = none :=
          lookup_of_entries_eq_nil hnone
        refine ⟨fun tp => ?_, fun tp => ?_, fun tp => ?_⟩
        · show _ = s.log.segment tp ((src.startOffsets.lookup tp).getD (s.started tp))
            ((src.startOffsets.lookup tp).getD (s.position tp))
          rw [hlookup]
          exact hs.reads.segment tp
        · show (src.startOffsets.lookup tp).getD (s.started tp)
            ≤ (src.startOffsets.lookup tp).getD (s.position tp)
          rw [hlookup]
          exact hs.reads.started tp
        · show (src.startOffsets.lookup tp).getD (s.position tp) ≤ _
            ∨ (src.startOffsets.lookup tp).getD (s.position tp)
              = (src.startOffsets.lookup tp).getD (s.started tp)
          rw [hlookup]
          exact hs.reads.bound tp
      · show State.Reads _ (s.folded ++ s.kept)
        rw [hnil]
        refine reads_nil (funext (fun tp => ?_))
        show (src.startOffsets.lookup tp).getD (s.position tp)
          = (src.startOffsets.lookup tp).getD (s.started tp)
        rw [heq]
    · refine placed_of_ne (fun polls h => ?_) (fun highwater live h => ?_) <;>
        · have h : (if src.stopAtHighwater then Pc.marking else Pc.scanning 0) = _ := h
          split at h <;> cases h
  next => exact fun hne => absurd rfl (hne _)

/-- **While partitions are waited for**, there is nothing to be folded yet but the answer that came
with them. -/
theorem stands_waitForAssignment (hs : s.Scanning py digest src ends)
    (hstart : src.startOffsets.entries = [] ∨ s.position = s.started ∧ s.folded ++ s.kept = [])
    (hwaiting : s.assignment = [] →
      s.prefetch = [] ∧ s.folded = [] ∧ s.marks = [] ∧ src.startOffsets.entries = []) (polls : ℕ) :
    (src.waitForAssignment s polls).Stands py digest src ends := by
  unfold waitForAssignment
  cases polls with
  | zero => exact fun _ => ⟨hs.withPc _, placed_of_ne nofun nofun⟩
  | succ polls =>
    dsimp only
    split
    next => exact stands_startScan hs hstart
    next h => exact fun _ => ⟨hs.withPc _, fun _ _ => hwaiting (not_not.1 h), nofun⟩

/-- **While partitions are waited for** nothing has been read. -/
theorem State.Placed.unread (hs : s.Placed py src) {polls : ℕ} (hpc : s.pc = .waiting polls) :
    s.folded ++ s.kept = [] := by
  obtain ⟨hprefetch, hfolded, _⟩ := hs.waiting polls hpc
  rw [State.kept_of_prefetch_eq_nil hprefetch, hfolded]
  rfl

/-- **The partitions come**, with the positions they are read from. -/
theorem stands_assigned (hs : s.Stands py digest src ends) {polls : ℕ} (hpc : s.pc = .waiting polls)
    (partitions : List TopicPartition) (position : TopicPartition → ℤ) :
    State.Stands py digest src ends
      { s with assignment := partitions, position, started := position } := by
  obtain ⟨hscan, hplaced⟩ := hs (by rw [hpc]; exact nofun)
  obtain ⟨_, _, hunmarked, _⟩ := hplaced.waiting polls hpc
  refine fun _ => ⟨⟨hscan.sorted, hscan.grown, ?_, hscan.compaction, hscan.single,
    fun hmarks => absurd hunmarked hmarks⟩,
    ⟨hplaced.waiting, fun _ _ h => nomatch hpc.symm.trans h⟩⟩
  show State.Reads _ (s.folded ++ s.kept)
  rw [hplaced.unread hpc]
  exact reads_nil rfl

/-- **A poll while partitions are waited for** keeps its answer, and goes on. -/
theorem stands_polledWaiting (hs : s.Stands py digest src ends) {polls : ℕ}
    (hpc : s.pc = .waiting polls) {reads : List (TopicPartition × ℤ)} {batches : Batches}
    (hget : s.getmany reads = some (batches, t)) :
    (src.waitForAssignment
      { t with prefetch := if batches = [] then t.prefetch else t.prefetch ++ [batches] }
      polls).Stands py digest src ends := by
  obtain ⟨hscan, hplaced⟩ := hs (by rw [hpc]; exact nofun)
  obtain ⟨hprefetch, hfolded, hunmarked, hoffsets⟩ := hplaced.waiting polls hpc
  have hreads := hplaced.unread hpc ▸ hscan.reads
  have hu := hreads.getmany hscan.sorted hget
  have hbatches : s.assignment = [] → batches = [] := fun h => eq_nil_of_getmany h hget
  obtain ⟨position, rfl, _⟩ := exists_of_getmany hget
  dsimp only
  rw [hprefetch]
  refine stands_waitForAssignment
    (s := { s with position, prefetch := if batches = [] then [] else [] ++ [batches] })
    ⟨hscan.sorted, hscan.grown, ?_, hscan.compaction, ?_, fun h => absurd hunmarked h⟩
    (.inl hoffsets) (fun h => ⟨?_, hfolded, hunmarked, hoffsets⟩) polls
  · have hkept : (if batches = [] then [] else [] ++ [batches]).flatMap messages
        = messages batches := by
      split
      next h => rw [h]; rfl
      next => exact List.append_nil _
    show State.Reads _ (s.folded
      ++ (if batches = [] then [] else [] ++ [batches]).flatMap messages)
    rw [hkept, hfolded]
    exact ⟨hu.segment, hu.started, hu.bound⟩
  · show (if batches = [] then [] else [] ++ [batches]).length ≤ 1
    split
    · exact Nat.zero_le 1
    · exact Nat.le_refl 1
  · show (if batches = [] then [] else [] ++ [batches]) = []
    rw [if_pos (hbatches h)]

/-- **A poll of the loop** is folded at once. -/
theorem stands_polledScanning (hscan : s.Scanning py digest src ends) (hnil : s.prefetch = [])
    {reads : List (TopicPartition × ℤ)} {batches : Batches}
    (hget : s.getmany reads = some (batches, t)) (idlePolls : ℕ) :
    (src.iterate py digest t idlePolls batches).Stands py digest src ends := by
  have hreads := hscan.reads
  rw [State.kept_of_prefetch_eq_nil hnil, List.append_nil] at hreads
  have hu := hreads.getmany hscan.sorted hget
  obtain ⟨position, rfl, _⟩ := exists_of_getmany hget
  exact stands_iterate (s := { s with position }) hscan.sorted hscan.grown hnil hu
    hscan.compaction hscan.marks idlePolls

/-- **The answer that was kept** is folded in the first iteration. -/
theorem stands_prefetched (hscan : s.Scanning py digest src ends) {batches : Batches}
    {prefetch : List Batches} (hprefetch : s.prefetch = batches :: prefetch) (idlePolls : ℕ) :
    (src.iterate py digest { s with prefetch } idlePolls batches).Stands py digest src ends := by
  have hsingle := hscan.single
  rw [hprefetch, List.length_cons] at hsingle
  have hnil : prefetch = [] := List.eq_nil_of_length_eq_zero (by omega)
  have hkept : s.kept = messages batches := by
    unfold State.kept
    rw [hprefetch, hnil]
    exact List.append_nil _
  have hreads := hscan.reads
  rw [hkept] at hreads
  exact stands_iterate (s := { s with prefetch }) hscan.sorted hscan.grown hnil
    ⟨hreads.segment, hreads.started, hreads.bound⟩ hscan.compaction hscan.marks idlePolls

/-- **The marks are set**, or there are none. -/
theorem stands_marked (hscan : s.Scanning py digest src ends) {marks : List (TopicPartition × ℤ)}
    (hmarks : marks ≠ [] → ∀ tp ∈ s.assignment, ∃ m, (tp, m) ∈ marks ∧ ends tp ≤ m) :
    State.Stands py digest src ends { s with marks, pc := .scanning 0 } :=
  fun _ => ⟨⟨hscan.sorted, hscan.grown, ⟨hscan.reads.segment, hscan.reads.started,
    hscan.reads.bound⟩, hscan.compaction, hscan.single, hmarks⟩, placed_of_ne nofun nofun⟩

/-- **One step** leaves the scan standing. -/
theorem stands_step {e : Event} (hs : s.Stands py digest src ends)
    (h : src.step py digest s e = some t) : t.Stands py digest src ends := by
  have hscan : (∀ e, s.pc ≠ .failed e) → s.Scanning py digest src ends := fun hne => (hs hne).1
  cases e with
  | appended q gap value =>
    cases h
    intro hne
    obtain ⟨hscan, hplaced⟩ := hs hne
    exact ⟨hscan.append q gap value, hplaced.waiting, hplaced.found⟩
  | assigned partitions position =>
    unfold step at h
    dsimp only at h
    split at h
    -- only a scan that waits for its partitions is given any
    next polls hpc =>
      rw [Option.ite_none_right_eq_some, Option.some.injEq] at h
      obtain ⟨_, rfl⟩ := h
      exact stands_assigned hs hpc partitions position
    next => cases h
  | polled reads =>
    unfold step at h
    dsimp only at h
    split at h
    next polls hpc =>
      obtain ⟨⟨batches, u⟩, hget, rfl⟩ := Option.map_eq_some_iff.1 h
      exact stands_polledWaiting hs hpc hget
    next idlePolls hpc =>
      rw [Option.ite_none_right_eq_some] at h
      obtain ⟨hnil, h⟩ := h
      obtain ⟨⟨batches, u⟩, hget, rfl⟩ := Option.map_eq_some_iff.1 h
      exact stands_polledScanning (hscan (by rw [hpc]; exact nofun)) hnil hget idlePolls
    next => cases h
  | marked =>
    unfold step at h
    dsimp only at h
    split at h
    next hpc =>
      cases h
      have hscan := hscan (by rw [hpc]; exact nofun)
      refine stands_marked hscan (fun _ tp htp => ?_)
      exact ⟨s.log.endOffset tp, List.mem_map_of_mem (f := fun tp => (tp, s.log.endOffset tp)) htp,
        hscan.grown tp⟩
    next => cases h
  | unmarked =>
    unfold step at h
    dsimp only at h
    split at h
    next hpc =>
      cases h
      exact stands_marked (hscan (by rw [hpc]; exact nofun)) (fun h => absurd rfl h)
    next => cases h
  | prefetched =>
    unfold step at h
    dsimp only at h
    split at h
    next idlePolls batches prefetch hpc hprefetch =>
      cases h
      exact stands_prefetched (hscan (by rw [hpc]; exact nofun)) hprefetch idlePolls
    next => cases h

/-- **A scan that begins** stands, with what there is in the topic. -/
theorem stands_begin {log : PartitionedLog TopicPartition String} (hlog : log.Sorted)
    {assignment : List TopicPartition} (position : TopicPartition → ℤ)
    (hstart : src.startOffsets.entries = [] ∨ assignment ≠ []) :
    (src.begin log assignment position : State δ).Stands py digest src log.endOffset := by
  have hscan : State.Scanning py digest src log.endOffset
      { log, assignment, position, pc := .unassigned, started := position } :=
    ⟨hlog, fun _ => Int.le_refl _, reads_nil rfl, rfl, Nat.zero_le 1, fun h => absurd rfl h⟩
  refine stands_waitForAssignment hscan (.inr ⟨rfl, rfl⟩) (fun h => ⟨rfl, rfl, rfl, ?_⟩) 20
  exact hstart.resolve_right (fun hne => hne h)

/-- **At every point of a run** the scan stands. -/
theorem stands_run {log : PartitionedLog TopicPartition String} (hlog : log.Sorted)
    {assignment : List TopicPartition} {position : TopicPartition → ℤ}
    (hstart : src.startOffsets.entries = [] ∨ assignment ≠ []) {es : List Event}
    (h : run (src.step py digest) (src.begin log assignment position) es = some t) :
    t.Stands py digest src log.endOffset :=
  (allStates_of_invariant (fun _ _ _ hs hstep => stands_step hs hstep)
    (stands_begin hlog position hstart) es).last h

/-! ## What the last message of a key has done -/

variable (py digest) in
/-- **What a message does with a key**: nothing, or the record it keeps of it, none for a
delete. -/
def opOf (policy : Option DLQPayloadPolicy) (key : String) (text : String) :
    Option (Option (DLQRecord δ)) :=
  match decodeDlqEnvelope py digest policy text with
  | .error _ => none
  | .ok (operation, storageKey, r) =>
    if storageKey = key then
      (applyPayloadPolicy py policy (if operation = "delete" then none else r)).toOption
    else none

variable (py digest) in
/-- The key of a message. -/
def keyOf (policy : Option DLQPayloadPolicy) (text : String) : Option String :=
  match decodeDlqEnvelope py digest policy text with
  | .error _ => none
  | .ok (_, storageKey, _) => some storageKey

variable {policy : Option DLQPayloadPolicy}

/-- A message does something with its own key only. -/
theorem keyOf_of_opOf {key text : String} (h : (opOf py digest policy key text).isSome = true) :
    keyOf py digest policy text = some key := by
  unfold opOf at h
  unfold keyOf
  cases hdecode : decodeDlqEnvelope py digest policy text with
  | error e =>
    rw [hdecode] at h
    cases h
  | ok decoded =>
    rw [hdecode] at h
    dsimp only at h ⊢
    split at h
    next hkey => rw [hkey]
    next => cases h

/-- **Memory has what the last message of a key has done**, or what it had. -/
theorem lookup_of_foldlM {texts : List String} {u v : ℕ × KafkaDLQCompactionState δ}
    (hu : u.2.conn = none)
    (h : texts.foldlM (scanMessage py policy digest none) u = .ok v) (key : String) :
    v.2.conn = none ∧ (v.2.memory.lookup key).map Prod.snd
      = ((texts.filterMap (opOf py digest policy key)).getLast?).or
        ((u.2.memory.lookup key).map Prod.snd) := by
  induction texts generalizing u with
  | nil =>
    cases h
    exact ⟨hu, rfl⟩
  | cons text texts ih =>
    rw [List.foldlM_cons] at h
    obtain ⟨u₁, hmessage, h⟩ := exists_of_bind_eq_ok h
    obtain ⟨⟨operation, storageKey, r⟩, hdecode, hmessage⟩ := exists_of_bind_eq_ok hmessage
    obtain ⟨state, hupdate, hmessage⟩ := exists_of_bind_eq_ok hmessage
    obtain ⟨stored, hstored, rfl⟩ := exists_of_update_memory hu hupdate
    cases hmessage
    have hop : opOf py digest policy key text = if storageKey = key then some stored else none := by
      unfold opOf
      rw [hdecode]
      dsimp only at hstored ⊢
      rw [hstored]
      rfl
    obtain ⟨hv, hlookup⟩ := ih (u := (u.1 + 1, { u.2 with
      memory := u.2.memory.insert storageKey (u.1, stored) })) hu h
    refine ⟨hv, hlookup.trans ?_⟩
    dsimp only
    rw [List.filterMap_cons, hop]
    by_cases hkey : storageKey = key
    · rw [if_pos hkey, hkey, AList.lookup_insert]
      dsimp only
      rw [List.getLast?_cons]
      cases (texts.filterMap (opOf py digest policy key)).getLast? <;> rfl
    · rw [if_neg hkey, AList.lookup_insert_ne (Ne.symm hkey)]

/-- What is live in memory. -/
theorem mem_live {memory : Dict String (ℕ × Option (DLQRecord δ))} {key : String} {n : ℕ}
    {r : DLQRecord δ} : (key, n, r) ∈ live memory ↔ memory.lookup key = some (n, some r) := by
  rw [show (memory.lookup key = some (n, some r)) = ((n, some r) ∈ memory.lookup key) from rfl,
    AList.mem_lookup_iff]
  unfold live
  rw [List.mem_filterMap]
  constructor
  · rintro ⟨⟨k, m, stored⟩, he, h⟩
    obtain ⟨r', hr', h⟩ := Option.map_eq_some_iff.1 h
    have hr' : stored = some r' := hr'
    cases h
    rw [hr'] at he
    exact he
  · exact fun he => ⟨⟨key, (n, some r)⟩, he, rfl⟩

/-- **A record is found** just if the last message of some key has kept it. -/
theorem mem_of_scan {texts : List String} {found : List (ℕ × DLQRecord δ)}
    (h : scan py policy digest none texts = .ok found) (r : DLQRecord δ) :
    (∃ n, (n, r) ∈ found)
      ↔ ∃ key, (texts.filterMap (opOf py digest policy key)).getLast? = some (some r) := by
  obtain ⟨⟨n, state⟩, hfold, hlive⟩ := exists_of_bind_eq_ok h
  have hconn : state.conn = none := (lookup_of_foldlM rfl hfold "").1
  have hlast : ∀ key, (state.memory.lookup key).map Prod.snd
      = (texts.filterMap (opOf py digest policy key)).getLast? :=
    fun key => (lookup_of_foldlM rfl hfold key).2.trans (Option.or_none)
  have hlive := Except.ok.inj ((liveRecords_memory hconn).symm.trans hlive)
  constructor
  · rintro ⟨n, hr⟩
    rw [← hlive] at hr
    obtain ⟨⟨key, m, r'⟩, hr', heq⟩ := List.mem_map.1 hr
    cases heq
    refine ⟨key, ?_⟩
    rw [← hlast, mem_live.1 (List.mem_mergeSort.1 hr')]
    rfl
  · rintro ⟨key, hkey⟩
    rw [← hlast] at hkey
    obtain ⟨⟨n, stored⟩, hlookup, hstored⟩ := Option.map_eq_some_iff.1 hkey
    have hstored : stored = some r := hstored
    rw [hstored] at hlookup
    refine ⟨n, ?_⟩
    rw [← hlive]
    exact List.mem_map.2 ⟨(key, n, r), List.mem_mergeSort.2 (mem_live.2 hlookup), rfl⟩

/-! ## The partitions of the keys -/

variable (py digest src) in
/-- **The messages of a key are all in one partition** of the topic. -/
def State.Homed (home : String → TopicPartition) (s : State δ) : Prop :=
  ∀ tp, ∀ m ∈ s.log.entries tp, ∀ key ∈ keyOf py digest src.payloadPolicy m.2, tp = home key

variable (py digest src) in
/-- A message is appended to the partition of its key. -/
def Event.Homed (home : String → TopicPartition) : Event → Prop
  | .appended tp _ value => ∀ key ∈ keyOf py digest src.payloadPolicy value, tp = home key
  | _ => True

instance (home : String → TopicPartition) :
    ∀ e : Event, Decidable (e.Homed py digest src home)
  | .appended tp _ value =>
    inferInstanceAs (Decidable (∀ key ∈ keyOf py digest src.payloadPolicy value, tp = home key))
  | .assigned _ _ => .isTrue trivial
  | .polled _ => .isTrue trivial
  | .marked => .isTrue trivial
  | .unmarked => .isTrue trivial
  | .prefetched => .isTrue trivial

@[simp] theorem log_finish (s : State δ) (highwater : Bool) :
    (src.finish py s highwater).log = s.log := by
  unfold finish
  split <;> rfl

/-- A scan writes nothing. -/
@[simp] theorem log_iterate (s : State δ) (idlePolls : ℕ) (batches : Batches) :
    (src.iterate py digest s idlePolls batches).log = s.log := by
  unfold iterate
  split
  · rfl
  · dsimp only
    generalize (if messages batches = [] then idlePolls + 1 else 0) = idlePolls
    split
    · exact log_finish _ _
    · split
      · rfl
      · exact log_finish _ _

@[simp] theorem log_waitForAssignment (s : State δ) (polls : ℕ) :
    (src.waitForAssignment s polls).log = s.log := by
  unfold waitForAssignment startScan
  split
  · rfl
  · split
    · split <;> rfl
    · rfl

/-- **Only what is appended** is new in the logs. -/
theorem log_of_step {e : Event} (h : src.step py digest s e = some t) :
    t.log = s.log ∨ ∃ tp gap value, e = .appended tp gap value
      ∧ t.log = s.log.append tp gap value := by
  cases e with
  | appended tp gap value =>
    cases h
    exact .inr ⟨tp, gap, value, rfl, rfl⟩
  | assigned partitions position =>
    unfold step at h
    dsimp only at h
    split at h
    next =>
      rw [Option.ite_none_right_eq_some, Option.some.injEq] at h
      obtain ⟨_, rfl⟩ := h
      exact .inl rfl
    next => cases h
  | polled reads =>
    unfold step at h
    dsimp only at h
    split at h
    next =>
      obtain ⟨⟨batches, u⟩, hget, rfl⟩ := Option.map_eq_some_iff.1 h
      obtain ⟨position, rfl, _⟩ := exists_of_getmany hget
      exact .inl (log_waitForAssignment _ _)
    next =>
      rw [Option.ite_none_right_eq_some] at h
      obtain ⟨⟨batches, u⟩, hget, rfl⟩ := Option.map_eq_some_iff.1 h.2
      obtain ⟨position, rfl, _⟩ := exists_of_getmany hget
      exact .inl (log_iterate _ _ _)
    next => cases h
  | marked =>
    unfold step at h
    dsimp only at h
    split at h <;> cases h
    exact .inl rfl
  | unmarked =>
    unfold step at h
    dsimp only at h
    split at h <;> cases h
    exact .inl rfl
  | prefetched =>
    unfold step at h
    dsimp only at h
    split at h <;> cases h
    exact .inl (log_iterate _ _ _)

/-- **One step** leaves the keys in their partitions. -/
theorem homed_step {home : String → TopicPartition} {e : Event} (hs : s.Homed py digest src home)
    (he : e.Homed py digest src home) (h : src.step py digest s e = some t) :
    t.Homed py digest src home := by
  unfold State.Homed
  rcases log_of_step h with hlog | ⟨q, gap, value, rfl, hlog⟩
  · rw [hlog]
    exact hs
  · intro tp m hm key hkey
    rw [hlog] at hm
    have hm : m ∈ if tp = q then s.log.entries tp ++ [(s.log.endOffset tp + gap, value)]
      else s.log.entries tp := hm
    split at hm
    next htp =>
      rcases List.mem_append.1 hm with hm | hm
      · exact hs tp m hm key hkey
      · rw [List.mem_singleton.1 hm] at hkey
        exact htp.trans (he key hkey)
    next => exact hs tp m hm key hkey

/-! ## What a scan finds -/

variable (py digest src) in
/-- **What the last message of a key has done**, of those read of a partition. -/
def State.lastOp (s : State δ) (tp : TopicPartition) (key : String) :
    Option (Option (DLQRecord δ)) :=
  ((s.log.segment tp (s.started tp) (s.position tp)).filterMap
    (fun m => opOf py digest src.payloadPolicy key m.2)).getLast?

/-- What was folded of a key is in its partition. -/
theorem State.Scanning.lastOp (hs : s.Scanning py digest src ends) (hnil : s.prefetch = [])
    {home : String → TopicPartition} (hhome : s.Homed py digest src home) (key : String) :
    ((s.folded.map (fun m => m.2.2)).filterMap (opOf py digest src.payloadPolicy key)).getLast?
      = s.lastOp py digest src (home key) key := by
  have hreads := hs.reads
  unfold State.kept at hreads
  rw [hnil, List.flatMap_nil, List.append_nil] at hreads
  unfold State.lastOp
  rw [← hreads.segment, List.filterMap_map, PartitionedLog.filterMap_ofPartition]
  · rfl
  · intro x hx hop
    refine hhome x.1 x.2 ?_ key (keyOf_of_opOf hop)
    have hmem := PartitionedLog.mem_ofPartition.2 hx
    rw [hreads.segment] at hmem
    exact (PartitionedLog.mem_segment.1 hmem).1

/-- Without a limit the filters alone decide what is streamed. -/
theorem mem_stream (hlimit : src.limit = none) {live : List (ℕ × DLQRecord δ)} {r : DLQRecord δ} :
    r ∈ src.stream live ↔ (∃ n, (n, r) ∈ live) ∧ src.passes r = true
      ∧ ∀ n ∈ r.maxAttempts, r.attempt < n := by
  unfold stream yields
  rw [hlimit]
  dsimp only
  rw [List.mem_filter, List.mem_filter, List.mem_map]
  constructor
  · rintro ⟨⟨⟨⟨n, _⟩, hr, rfl⟩, hpasses⟩, hattempts⟩
    refine ⟨⟨n, hr⟩, hpasses, fun m hm => ?_⟩
    rw [Option.mem_def.1 hm] at hattempts
    exact of_decide_eq_true hattempts
  · rintro ⟨⟨n, hr⟩, hpasses, hattempts⟩
    refine ⟨⟨⟨(n, r), hr, rfl⟩, hpasses⟩, ?_⟩
    cases hmax : r.maxAttempts with
    | none => rfl
    | some m => exact decide_eq_true (hattempts m hmax)

variable (py digest src) in
/-- **What a scan has found**, when the logs ended here as it began: it has folded each partition
from where it began, to this end at least, and finds just the records put last under their
keys. -/
structure State.Found (ends : TopicPartition → ℤ) (home : String → TopicPartition) (s : State δ)
    (live : List (ℕ × DLQRecord δ)) : Prop where
  reached : ∀ tp ∈ s.assignment, ends tp ≤ s.position tp
  folded : ∀ tp, PartitionedLog.ofPartition tp s.folded
    = s.log.segment tp (s.started tp) (s.position tp)
  found : ∀ r, (∃ n, (n, r) ∈ live) ↔ ∃ key, s.lastOp py digest src (home key) key = some (some r)
  streamed : src.limit = none → ∀ r, r ∈ src.stream live ↔
    (∃ key, s.lastOp py digest src (home key) key = some (some r))
      ∧ src.passes r = true ∧ ∀ n ∈ r.maxAttempts, r.attempt < n

/-- **Stopped at the marks, a scan has found what is live**: whatever was polled, and whatever was
appended meanwhile, it has folded of each partition the log from where it began, all that there was
then included, and finds the records whose keys were put last. -/
theorem live_of_highwater {log : PartitionedLog TopicPartition String} (hlog : log.Sorted)
    {assignment : List TopicPartition} {position : TopicPartition → ℤ}
    (hstart : src.startOffsets.entries = [] ∨ assignment ≠ [])
    (hplain : ∀ p ∈ src.payloadPolicy, p.mode = .redacted → Plain py (p.headerNames py))
    {home : String → TopicPartition}
    (hhome : (src.begin log assignment position : State δ).Homed py digest src home)
    {es : List Event}
    (hes : AllSteps (src.step py digest) (fun _ e _ => e.Homed py digest src home)
      (src.begin log assignment position) es)
    (h : run (src.step py digest) (src.begin log assignment position) es = some t)
    {live : List (ℕ × DLQRecord δ)} (hpc : t.pc = .finished true live) :
    t.Found py digest src log.endOffset home live := by
  have hhome : t.Homed py digest src home :=
    (allStates_of_step (fun s e u (hs : s.Homed py digest src home)
      (he : e.Homed py digest src home) hstep => homed_step hs he hstep) hhome hes).last h
  obtain ⟨hscan, hplaced⟩ := stands_run hlog hstart h (by rw [hpc]; exact nofun)
  obtain ⟨hlive, hfound⟩ := hplaced.found true live hpc
  obtain ⟨hnil, hmarks, hreached⟩ := hfound rfl
  have hreads := hscan.reads
  unfold State.kept at hreads
  rw [hnil, List.flatMap_nil, List.append_nil] at hreads
  have hfound : ∀ r, (∃ n, (n, r) ∈ live)
      ↔ ∃ key, t.lastOp py digest src (home key) key = some (some r) := by
    intro r
    have hscanned : scan py src.payloadPolicy digest src.compactionSpillThreshold
        (t.folded.map (fun m => m.2.2)) = .ok live := by
      unfold scan
      rw [hscan.compaction]
      exact hlive
    rw [scan_eq_memory (keepsRecords_of_plain hplain)] at hscanned
    rw [mem_of_scan hscanned r]
    exact exists_congr (fun key => by rw [hscan.lastOp hnil hhome key])
  refine ⟨fun tp htp => ?_, hreads.segment, hfound, fun hlimit r => ?_⟩
  · obtain ⟨m, hm, hle⟩ := hscan.marks hmarks tp htp
    have hm : decide (m ≤ t.position tp) = true := List.all_eq_true.1 hreached (tp, m) hm
    exact Int.le_trans hle (of_decide_eq_true hm)
  · rw [mem_stream hlimit, hfound r]

/-! ## An example -/

/-- A put of a record. -/
def put (storageKey : String) : String :=
  serialize ([("op", .str "put"), ("storage_key", .str storageKey)]
    ++ [("payload", .obj (recordToPayload .ofTexts none nested))])

/-- A delete. -/
def deletion (storageKey : String) : String :=
  serialize [("op", .str "delete"), ("storage_key", .str storageKey)]

/-- A source that stops at the marks. -/
def stopping : KafkaDLQSource where
  pipelineId := some "orders"
  stage := none
  limit := none
  scanIdlePolls := 3
  stopAtHighwater := true
  startOffsets := ∅
  compactionSpillThreshold := none
  payloadPolicy := none
  limit_pos := nofun
  scanIdlePolls_pos := by decide

/-- Two messages in the first partition, one in the other. -/
def twoKeys (a a' b : String) : PartitionedLog TopicPartition String where
  entries tp :=
    if tp = ⟨"dlq", 0⟩ then [(0, a), (3, a')] else if tp = ⟨"dlq", 1⟩ then [(0, b)] else []
  endOffset tp := if tp = ⟨"dlq", 0⟩ then 4 else if tp = ⟨"dlq", 1⟩ then 1 else 0

/-- The key `a` is put and deleted. -/
def putAndDeleted : PartitionedLog TopicPartition String :=
  twoKeys (put "a") (deletion "a") (put "b")

/-- The partition of a key. -/
def homeOf (key : String) : TopicPartition := if key = "b" then ⟨"dlq", 1⟩ else ⟨"dlq", 0⟩

/-- The poll that gets the assignment has the first message; another one is appended meanwhile. -/
def prefetching (c : String) : List Event :=
  [.polled [], .assigned [⟨"dlq", 0⟩, ⟨"dlq", 1⟩] (fun _ => 0), .polled [(⟨"dlq", 0⟩, 1)], .marked,
    .appended ⟨"dlq", 0⟩ 2 c, .prefetched, .polled [(⟨"dlq", 1⟩, 1), (⟨"dlq", 0⟩, 7)]]

/-- The state before anything is folded. -/
def prefetched (a a' b c : String) : State String where
  log := (twoKeys a a' b).append ⟨"dlq", 0⟩ 2 c
  assignment := [⟨"dlq", 0⟩, ⟨"dlq", 1⟩]
  position := fun q => if q = ⟨"dlq", 0⟩ then 1 else 0
  pc := .scanning 0
  marks := [(⟨"dlq", 0⟩, 4), (⟨"dlq", 1⟩, 1)]
  started := fun _ => 0

theorem run_prefetching (a a' b c : String) :
    run (stopping.step Python.ofTexts (fun _ => ""))
        (stopping.begin (twoKeys a a' b) [] (fun _ => 0)) (prefetching c)
      = run (stopping.step Python.ofTexts (fun _ => ""))
        (stopping.iterate .ofTexts (fun _ => "") (prefetched a a' b c) 0 [(⟨"dlq", 0⟩, [(0, a)])])
        [.polled [(⟨"dlq", 1⟩, 1), (⟨"dlq", 0⟩, 7)]] := by
  rfl

/-- The state before the last messages are folded. -/
def polled (a a' b c : String) (compaction : ℕ × KafkaDLQCompactionState String) :
    State String where
  log := (twoKeys a a' b).append ⟨"dlq", 0⟩ 2 c
  assignment := [⟨"dlq", 0⟩, ⟨"dlq", 1⟩]
  position := fun q =>
    if q = ⟨"dlq", 0⟩ then 7 else if q = ⟨"dlq", 1⟩ then 1 else if q = ⟨"dlq", 0⟩ then 1 else 0
  pc := .scanning 0
  marks := [(⟨"dlq", 0⟩, 4), (⟨"dlq", 1⟩, 1)]
  compaction := compaction
  started := fun _ => 0
  folded := [(⟨"dlq", 0⟩, 0, a)]

theorem run_polled (a a' b c : String) (compaction : ℕ × KafkaDLQCompactionState String) :
    run (stopping.step Python.ofTexts (fun _ => ""))
        { prefetched a a' b c with compaction, folded := [(⟨"dlq", 0⟩, 0, a)], pc := .scanning 0 }
        [.polled [(⟨"dlq", 1⟩, 1), (⟨"dlq", 0⟩, 7)]]
      = some (stopping.iterate .ofTexts (fun _ => "") (polled a a' b c compaction) 0
        [(⟨"dlq", 1⟩, [(0, b)]), (⟨"dlq", 0⟩, [(3, a'), (6, c)])]) := by
  rfl

theorem decode_put (storageKey : String) :
    decodeDlqEnvelope .ofTexts (fun _ => "") none (put storageKey)
      = .ok ("put", storageKey, some (keyed storageKey (normalized nested))) :=
  decodeDlqEnvelope_clear _ none storageKey nested

theorem decode_deletion (storageKey : String) :
    @decodeDlqEnvelope String .ofTexts (fun _ => "") none (deletion storageKey)
      = .ok ("delete", storageKey, none) :=
  @decodeDlqEnvelope_eq String .ofTexts (fun _ => "") none _ _ _ none rfl rfl rfl

theorem keyOf_put (storageKey : String) :
    @keyOf String .ofTexts (fun _ => "") none (put storageKey) = some storageKey := by
  unfold keyOf
  rw [decode_put]

theorem keyOf_deletion (storageKey : String) :
    @keyOf String .ofTexts (fun _ => "") none (deletion storageKey) = some storageKey := by
  unfold keyOf
  rw [decode_deletion]

/-- An iteration whose messages are folded. -/
theorem iterate_of_foldlM {idlePolls : ℕ} {batches : Batches}
    {compaction : ℕ × KafkaDLQCompactionState δ}
    (h : ((messages batches).map (fun m => m.2.2)).foldlM
      (scanMessage py src.payloadPolicy digest src.compactionSpillThreshold) s.compaction
        = .ok compaction) :
    src.iterate py digest s idlePolls batches
      = if s.marks ≠ [] ∧ s.reachedHighwater = true then
          src.finish py { s with compaction, folded := s.folded ++ messages batches } true
        else if (if messages batches = [] then idlePolls + 1 else 0) < src.scanIdlePolls then
          { s with
            compaction, folded := s.folded ++ messages batches
            pc := .scanning (if messages batches = [] then idlePolls + 1 else 0) }
        else src.finish py { s with compaction, folded := s.folded ++ messages batches } false := by
  unfold iterate
  rw [h]
  rfl

/-- Without a policy what can be decoded is folded in memory. -/
theorem exists_foldlM {texts : List String}
    (h : ∀ text ∈ texts, ∃ d, decodeDlqEnvelope py digest none text = .ok d)
    {u : ℕ × KafkaDLQCompactionState δ} (hu : u.2.conn = none) :
    ∃ v, texts.foldlM (scanMessage py none digest none) u = .ok v ∧ v.2.conn = none := by
  induction texts generalizing u with
  | nil => exact ⟨u, rfl, hu⟩
  | cons text texts ih =>
    obtain ⟨⟨operation, storageKey, r⟩, hdecode⟩ := h text List.mem_cons_self
    have hstored : ∀ r : Option (DLQRecord δ), applyPayloadPolicy py none r = .ok r := by
      intro r
      cases r <;> rfl
    have hmemory : shouldSpill none u.2 storageKey = false := by simp [shouldSpill]
    have hmessage : ∃ v, scanMessage py none digest none u text = .ok v ∧ v.2.conn = none := by
      unfold scanMessage update
      rw [hdecode]
      dsimp only [bind, Except.bind]
      rw [hstored, hmemory]
      dsimp only
      rw [if_neg Bool.false_ne_true, keep_memory hu]
      exact ⟨_, rfl, hu⟩
    obtain ⟨v, hmessage, hv⟩ := hmessage
    rw [List.foldlM_cons, hmessage]
    exact ih (fun text ht => h text (List.mem_cons_of_mem _ ht)) hv

/-- The run comes to the marks. -/
theorem exists_run_prefetching :
    ∃ t live, run (stopping.step Python.ofTexts (fun _ => ""))
        (stopping.begin putAndDeleted [] (fun _ => 0)) (prefetching (put "c")) = some t
      ∧ t.pc = .finished true live ∧ t.position ⟨"dlq", 0⟩ = 7 := by
  have hdecode : ∀ text ∈ [put "a"],
      ∃ d, decodeDlqEnvelope .ofTexts (fun _ => "") none text = .ok d :=
    List.forall_mem_singleton.2 ⟨_, decode_put "a"⟩
  have hdecode' : ∀ text ∈ [put "b", deletion "a", put "c"],
      ∃ d, decodeDlqEnvelope .ofTexts (fun _ => "") none text = .ok d :=
    List.forall_mem_cons.2 ⟨⟨_, decode_put "b"⟩, List.forall_mem_cons.2
      ⟨⟨_, decode_deletion "a"⟩, List.forall_mem_singleton.2 ⟨_, decode_put "c"⟩⟩⟩
  obtain ⟨c, hc, hconn⟩ := exists_foldlM hdecode
    (show ((0, {}) : ℕ × KafkaDLQCompactionState String).2.conn = none from rfl)
  obtain ⟨c', hc', hconn'⟩ := exists_foldlM hdecode' hconn
  unfold putAndDeleted
  -- the texts are as good as any once they are folded
  generalize put "a" = a, deletion "a" = a', put "b" = b, put "c" = b' at *
  have hshort : ¬ ((prefetched a a' b b').marks ≠ []
      ∧ (prefetched a a' b b').reachedHighwater = true) :=
    fun h => Bool.false_ne_true h.2
  have hfirst := @iterate_of_foldlM String .ofTexts (fun _ => "") stopping
    (prefetched a a' b b') 0 [(⟨"dlq", 0⟩, [(0, a)])] c hc
  rw [if_neg hshort, show messages [((⟨"dlq", 0⟩ : TopicPartition), [((0 : ℤ), a)])]
    = [(⟨"dlq", 0⟩, 0, a)] from rfl, if_neg (List.cons_ne_nil _ _),
    if_pos (show 0 < stopping.scanIdlePolls by decide)] at hfirst
  have hreached : (polled a a' b b' c).marks ≠ []
      ∧ (polled a a' b b' c).reachedHighwater = true := ⟨nofun, rfl⟩
  have hlast := @iterate_of_foldlM String .ofTexts (fun _ => "") stopping
    (polled a a' b b' c) 0 [(⟨"dlq", 1⟩, [(0, b)]), (⟨"dlq", 0⟩, [(3, a'), (6, b')])] c' hc'
  rw [if_pos hreached] at hlast
  unfold finish at hlast
  dsimp only at hlast
  rw [show stopping.payloadPolicy = none from rfl, liveRecords_memory hconn'] at hlast
  exact ⟨_, _, (run_prefetching a a' b b').trans ((congrArg (fun u => run _ u _) hfirst).trans
    ((run_polled a a' b b' c).trans (congrArg some hlast))), rfl, rfl⟩

theorem sorted_putAndDeleted : putAndDeleted.Sorted := by
  constructor
  · intro tp
    show (if tp = ⟨"dlq", 0⟩ then [(0, put "a"), (3, deletion "a")]
      else if tp = ⟨"dlq", 1⟩ then [((0 : ℤ), put "b")] else []).Pairwise _
    split
    · exact List.pairwise_pair.2 (by decide)
    · split
      · exact List.pairwise_singleton _ _
      · exact .nil
  · intro tp x hx
    have hx : x ∈ if tp = ⟨"dlq", 0⟩ then [(0, put "a"), (3, deletion "a")]
      else if tp = ⟨"dlq", 1⟩ then [((0 : ℤ), put "b")] else [] := hx
    show x.1 < if tp = ⟨"dlq", 0⟩ then 4 else if tp = ⟨"dlq", 1⟩ then 1 else 0
    split at hx
    next htp =>
      rw [if_pos htp]
      rcases List.mem_pair.1 hx with rfl | rfl <;> decide
    next htp =>
      rw [if_neg htp]
      split at hx
      next htp =>
        rw [if_pos htp, List.mem_singleton.1 hx]
        decide
      next => cases hx

theorem homed_putAndDeleted :
    (stopping.begin putAndDeleted [] (fun _ => 0) : State String).Homed .ofTexts (fun _ => "")
      stopping homeOf := by
  intro tp m hm key hkey
  have hm : m ∈ if tp = ⟨"dlq", 0⟩ then [(0, put "a"), (3, deletion "a")]
    else if tp = ⟨"dlq", 1⟩ then [((0 : ℤ), put "b")] else [] := hm
  split at hm
  next htp =>
    rcases List.mem_pair.1 hm with rfl | rfl
    · cases (keyOf_put "a").symm.trans hkey
      exact htp
    · cases (keyOf_deletion "a").symm.trans hkey
      exact htp
  next =>
    split at hm
    next htp =>
      cases List.mem_singleton.1 hm
      cases (keyOf_put "b").symm.trans hkey
      exact htp
    next => cases hm

/-- What was appended too is found at once. -/
theorem live_prefetching :
    ∃ t live, run (stopping.step Python.ofTexts (fun _ => ""))
        (stopping.begin putAndDeleted [] (fun _ => 0)) (prefetching (put "c")) = some t
      ∧ t.pc = .finished true live ∧ t.position ⟨"dlq", 0⟩ = 7
      ∧ t.Found .ofTexts (fun _ => "") stopping putAndDeleted.endOffset homeOf live := by
  have hguard : AllSteps (stopping.step Python.ofTexts (fun _ => ""))
      (fun _ e _ => e.Homed .ofTexts (fun _ => "") stopping homeOf)
      (stopping.begin putAndDeleted [] (fun _ => 0)) (prefetching (put "c")) := by
    refine fun _ _ => ⟨trivial, fun _ _ => ⟨trivial, fun _ _ => ⟨trivial, fun _ _ => ⟨trivial,
      fun _ _ => ⟨fun key hkey => ?_, fun _ _ => ⟨trivial, fun _ _ => ⟨trivial, trivial⟩⟩⟩⟩⟩⟩⟩
    cases (keyOf_put "c").symm.trans hkey
    rfl
  have hplain : ∀ p ∈ stopping.payloadPolicy, p.mode = .redacted →
      Plain .ofTexts (p.headerNames .ofTexts) :=
    fun p hp => nomatch (show none = some p from hp)
  obtain ⟨t, live, ht, hpc, hposition⟩ := exists_run_prefetching
  exact ⟨t, live, ht, hpc, hposition, live_of_highwater sorted_putAndDeleted (.inl rfl) hplain
    homed_putAndDeleted hguard ht hpc⟩

end KafkaDLQSource

end Dlq

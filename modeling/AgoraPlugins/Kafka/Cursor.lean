import AgoraPlugins.Dict
import Mathlib.Data.Int.Notation
import Mathlib.Data.List.Sort
import Mathlib.Order.Defs.LinearOrder

/-!
# Offsets, cursors and checkpoints

A Kafka source keeps, per partition, the offset it has processed last and the
offset it may commit. The first goes into checkpoints, the second into commits
to the broker, as the offset *after* it. `KafkaCursorState` holds both, with
the count of acknowledgements since the last commit, the offsets the next
stream is to start from, and a cache of the checkpoint that was built last.

A checkpoint is a dictionary that leaves the program and comes back, perhaps
edited and perhaps from an older version. `normalizeCheckpointOffsets` reads
any of them; what it reads from one the cursor built is what the cursor had
(`lookup_normalize_currentCheckpoint`), whether the checkpoint was built afresh
or came from the cache (`CursorState.Coherent`).
-/

/-- A partition of a topic. -/
structure TopicPartition where
  topic : String
  partition : ℤ
  deriving DecidableEq

/-- Offsets per partition. -/
abbrev OffsetMap := Dict TopicPartition ℤ

namespace TopicPartition

/-- Partitions sort by topic, then by number. -/
def le (a b : TopicPartition) : Bool :=
  a.topic < b.topic || (a.topic = b.topic && a.partition ≤ b.partition)

@[simp] theorem le_refl (a : TopicPartition) : a.le a = true := by
  simp [le]

end TopicPartition

/-- `sorted(offsets.items())`. -/
def sortedItems (offsets : OffsetMap) : List (Σ _ : TopicPartition, ℤ) :=
  offsets.entries.insertionSort (fun a b => TopicPartition.le a.1 b.1)

theorem perm_sortedItems (offsets : OffsetMap) : (sortedItems offsets).Perm offsets.entries :=
  List.perm_insertionSort _ _

/-- Where nothing is found there is nothing. -/
theorem entries_eq_nil_of_lookup {d : OffsetMap} (h : ∀ tp, d.lookup tp = none) :
    d.entries = [] := by
  cases hd : d.entries with
  | nil => rfl
  | cons e entries =>
    have hmem : (⟨e.1, e.2⟩ : Σ _ : TopicPartition, ℤ) ∈ d.entries := by
      rw [hd]
      exact List.mem_cons_self
    have hlookup : d.lookup e.1 = some e.2 := List.mem_dlookup d.nodupKeys hmem
    rw [h e.1] at hlookup
    cases hlookup

theorem lookup_of_entries_eq_nil {d : OffsetMap} (h : d.entries = []) (tp : TopicPartition) :
    d.lookup tp = none := by
  have hd : d = ∅ := AList.ext h
  rw [hd, AList.lookup_empty]

/-! ## Checkpoints -/

/-- One partition's offset, as a checkpoint spells it. -/
structure CheckpointEntry where
  topic : String
  partition : ℤ
  offset : ℤ
  deriving DecidableEq

/-- The entry of an offset. -/
def CheckpointEntry.ofItem (item : Σ _ : TopicPartition, ℤ) : CheckpointEntry :=
  ⟨item.1.topic, item.1.partition, item.2⟩

/-- The offset of an entry. -/
def CheckpointEntry.item (entry : CheckpointEntry) : Σ _ : TopicPartition, ℤ :=
  ⟨⟨entry.topic, entry.partition⟩, entry.offset⟩

/-- An entry of a checkpoint stands for its offset. -/
@[simp] theorem CheckpointEntry.item_ofItem (item : Σ _ : TopicPartition, ℤ) :
    (CheckpointEntry.ofItem item).item = item := rfl

/-- **A checkpoint as the source builds it**: the record seen last, and every
processed offset. -/
structure Checkpoint where
  last : CheckpointEntry
  offsets : List CheckpointEntry
  deriving DecidableEq

/-- **A checkpoint as it comes back.** Its `offsets` may be missing, and items
of them may lack a field; so may the checkpoint itself, which in older versions
was an entry and nothing more. -/
structure SavedCheckpoint where
  entry : Option CheckpointEntry
  offsets : Option (List (Option CheckpointEntry))
  deriving DecidableEq

/-- A checkpoint that was saved and comes back unchanged. -/
def Checkpoint.saved (checkpoint : Checkpoint) : SavedCheckpoint where
  entry := some checkpoint.last
  offsets := some (checkpoint.offsets.map some)

/-- **The offsets of a checkpoint**: those listed, items that lack a field left
out; if there are none, the offset of the checkpoint's own entry. -/
def normalizeCheckpointOffsets (value : SavedCheckpoint) : OffsetMap :=
  let offsets := Dict.ofList (((value.offsets.getD []).reduceOption).map CheckpointEntry.item)
  if offsets.entries ≠ [] then offsets
  else
    match value.entry with
    | none => ∅
    | some entry => AList.singleton entry.item.1 entry.item.2

/-! ## The cursor -/

/-- **`KafkaCursorState`**, field by field. -/
structure CursorState where
  startOffsets : OffsetMap := ∅
  resumeOffsets : OffsetMap := ∅
  positioningApplied : Bool := false
  pendingCommitCount : ℕ := 0
  processedOffsets : OffsetMap := ∅
  committableOffsets : OffsetMap := ∅
  lastSeen : Option (TopicPartition × ℤ) := none
  checkpointCache : Option Checkpoint := none
  checkpointDirty : Bool := false

namespace CursorState

variable (c : CursorState)

/-- **`reset_for_stream`.** -/
def resetForStream : CursorState :=
  { c with
    pendingCommitCount := 0
    processedOffsets := ∅
    committableOffsets := ∅
    lastSeen := none
    checkpointCache := none
    checkpointDirty := false
    positioningApplied := false }

/-- **`prepare_resume`.** -/
def prepareResume (offsets : OffsetMap) : CursorState :=
  { c with positioningApplied := false, resumeOffsets := offsets }

/-- The offsets the stream starts from: those configured, else those resumed
from. -/
def positioningTargets : OffsetMap :=
  if c.startOffsets.entries ≠ [] then c.startOffsets else c.resumeOffsets

/-- Whether a stream starts at given offsets. -/
def hasExactStartOffsets : Bool :=
  c.startOffsets.entries ≠ []

def markPositioningApplied : CursorState :=
  { c with positioningApplied := true }

/-- **`discard_tracking_state`** forgets what has been processed and what may be committed. -/
def discardTrackingState : CursorState :=
  { c with
    pendingCommitCount := 0
    processedOffsets := ∅
    committableOffsets := ∅
    lastSeen := none
    checkpointCache := none
    checkpointDirty := false }

/-- **`apply_exact_positioning`** forgets it for new positions. -/
def applyExactPositioning (offsets : OffsetMap) : CursorState :=
  { c with
    startOffsets := offsets
    resumeOffsets := ∅
    positioningApplied := true }.discardTrackingState

def clearPositioningTargets : CursorState :=
  { c with
    startOffsets := ∅
    resumeOffsets := ∅
    positioningApplied := true }.discardTrackingState

/-- **`remember_processed_offset`.** -/
def rememberProcessedOffset (tp : TopicPartition) (offset : ℤ) : CursorState :=
  { c with
    processedOffsets := c.processedOffsets.insert tp offset
    lastSeen := some (tp, offset)
    checkpointDirty := true }

/-- **`remember_committable_offset`**, which may also go back. -/
def rememberCommittableOffset (tp : TopicPartition) (offset : ℤ) : CursorState :=
  { c with committableOffsets := c.committableOffsets.insert tp offset }

/-- So many more records are to be committed. -/
def incrementPendingCommitCount (count : ℕ) : CursorState :=
  { c with pendingCommitCount := c.pendingCommitCount + count }

def clearPendingCommitCount : CursorState :=
  { c with pendingCommitCount := 0 }

/-- **`mark_delivered_message`.** -/
def markDeliveredMessage (tp : TopicPartition) (offset : ℤ) (enableAutoCommit : Bool) :
    CursorState :=
  let c := (c.rememberProcessedOffset tp offset).rememberCommittableOffset tp offset
  if enableAutoCommit then c else c.incrementPendingCommitCount 1

/-- **`mark_transaction_committed`.** -/
def markTransactionCommitted (tp : TopicPartition) (offset : ℤ) : CursorState :=
  ((c.rememberProcessedOffset tp offset).rememberCommittableOffset tp
    offset).clearPendingCommitCount

/-- What a commit asks of the broker: the offset after each committable one. -/
def buildCommitOffsets : OffsetMap :=
  Dict.mapValues (· + 1) c.committableOffsets

/-- The last of the sorted items. -/
def lastProcessed (offsets : OffsetMap) : Option (TopicPartition × ℤ) :=
  (sortedItems offsets).getLast?.map (fun item => (item.1, item.2))

/-- **`drop_revoked`** forgets partitions. -/
def dropRevoked (revoked : Finset TopicPartition) : CursorState :=
  let processedOffsets := Dict.without revoked c.processedOffsets
  { c with
    committableOffsets := Dict.without revoked c.committableOffsets
    processedOffsets
    lastSeen :=
      match c.lastSeen with
      | none => none
      | some (tp, offset) =>
        if tp ∈ revoked then lastProcessed processedOffsets else some (tp, offset)
    checkpointDirty := true }

/-- The checkpoint of what has been processed, seen last `(tp, offset)`. -/
def buildCheckpoint (tp : TopicPartition) (offset : ℤ) : Checkpoint where
  last := ⟨tp.topic, tp.partition, offset⟩
  offsets := (sortedItems c.processedOffsets).map CheckpointEntry.ofItem

/-- **The current checkpoint**, and the cursor with it cached. -/
def currentCheckpoint : Option Checkpoint × CursorState :=
  match c.lastSeen with
  | none => (none, c)
  | some (tp, offset) =>
    if c.processedOffsets.entries = [] then (none, c)
    else
      match c.checkpointDirty, c.checkpointCache with
      | false, some checkpoint => (some checkpoint, c)
      | _, _ =>
        let checkpoint := c.buildCheckpoint tp offset
        (some checkpoint, { c with checkpointCache := some checkpoint, checkpointDirty := false })

/-- Building a checkpoint touches the cache only. -/
theorem exists_currentCheckpoint_eq :
    ∃ cache dirty, c.currentCheckpoint.2
      = { c with checkpointCache := cache, checkpointDirty := dirty } := by
  unfold currentCheckpoint
  split
  · exact ⟨_, _, rfl⟩
  · split
    · exact ⟨_, _, rfl⟩
    · split <;> exact ⟨_, _, rfl⟩

/-! ## The checkpoint of a cursor -/

/-- **The cache is that of the present**, unless it is marked dirty, and what
has been processed has also been seen. -/
structure Coherent : Prop where
  seen : c.processedOffsets.entries ≠ [] → c.lastSeen ≠ none
  cache : c.checkpointDirty = false → ∀ checkpoint, c.checkpointCache = some checkpoint →
    checkpoint.offsets = (sortedItems c.processedOffsets).map CheckpointEntry.ofItem

namespace Coherent

variable {c} {c' : CursorState}

/-- What is coherent depends on these fields only. -/
theorem of_eq (h : c.Coherent) (hprocessed : c'.processedOffsets = c.processedOffsets)
    (hseen : c'.lastSeen = c.lastSeen) (hcache : c'.checkpointCache = c.checkpointCache)
    (hdirty : c'.checkpointDirty = c.checkpointDirty) : c'.Coherent where
  seen := by
    rw [hprocessed, hseen]
    exact h.seen
  cache := by
    rw [hprocessed, hcache, hdirty]
    exact h.cache

/-- A cursor that remembers nothing. -/
theorem of_empty (hprocessed : c'.processedOffsets = ∅) (hcache : c'.checkpointCache = none) :
    c'.Coherent where
  seen hne := absurd (by rw [hprocessed]; rfl) hne
  cache _ checkpoint h := by
    rw [hcache] at h
    cases h

/-- A cursor that has seen something since its checkpoint was built. -/
theorem of_dirty (hseen : c'.processedOffsets.entries ≠ [] → c'.lastSeen ≠ none)
    (hdirty : c'.checkpointDirty = true) : c'.Coherent where
  seen := hseen
  cache h := by
    rw [hdirty] at h
    cases h

end Coherent

/-- Something was processed last, if anything was. -/
theorem lastProcessed_ne_none {offsets : OffsetMap} (h : offsets.entries ≠ []) :
    lastProcessed offsets ≠ none := by
  intro hnone
  have hlast : (sortedItems offsets).getLast? = none := Option.map_eq_none_iff.1 hnone
  have hempty : sortedItems offsets = [] := List.getLast?_eq_none_iff.1 hlast
  have hperm := perm_sortedItems offsets
  rw [hempty] at hperm
  exact h (List.nil_perm.1 hperm)

/-- **What is revoked is not seen last.** -/
theorem Coherent.dropRevoked {c : CursorState} (h : c.Coherent) (revoked : Finset TopicPartition) :
    (c.dropRevoked revoked).Coherent := by
  refine .of_dirty (fun hne => ?_) rfl
  have hne : (Dict.without revoked c.processedOffsets).entries ≠ [] := hne
  show (match c.lastSeen with
    | none => none
    | some (tp, offset) =>
      if tp ∈ revoked then lastProcessed (Dict.without revoked c.processedOffsets)
      else some (tp, offset)) ≠ none
  split
  · rename_i hnone
    have hempty : c.processedOffsets.entries = [] := by
      by_contra hne'
      exact h.seen hne' hnone
    refine absurd (entries_eq_nil_of_lookup (fun tp => ?_)) hne
    rw [Dict.lookup_without, lookup_of_entries_eq_nil hempty]
    exact ite_self none
  · split
    · exact lastProcessed_ne_none hne
    · exact nofun

/-- Building the checkpoint caches it. -/
theorem Coherent.currentCheckpoint {c : CursorState} (h : c.Coherent) :
    c.currentCheckpoint.2.Coherent := by
  unfold CursorState.currentCheckpoint
  split
  · exact h
  · rename_i tp offset hseen
    split
    · exact h
    · split
      · exact h
      · refine ⟨h.seen, fun _ checkpoint hcache => ?_⟩
        cases hcache
        rfl

end CursorState

/-- The offsets a source is resumed with, from the checkpoint it was given. -/
def resumedOffsets : Option SavedCheckpoint → OffsetMap
  | none => ∅
  | some value => normalizeCheckpointOffsets value

/-- **Reading the entries back**: a checkpoint whose list is a dictionary's
sorted items reads back as that dictionary. -/
theorem lookup_normalizeCheckpointOffsets {checkpoint : Checkpoint} {d : OffsetMap}
    (h : checkpoint.offsets = (sortedItems d).map CheckpointEntry.ofItem)
    (hd : d.entries ≠ []) (tp : TopicPartition) :
    (normalizeCheckpointOffsets checkpoint.saved).lookup tp = d.lookup tp := by
  have hitems : ((checkpoint.saved.offsets.getD []).reduceOption).map CheckpointEntry.item
      = sortedItems d := by
    show (List.filterMap id (checkpoint.offsets.map some)).map CheckpointEntry.item = _
    rw [List.filterMap_map, h]
    show List.map _ (List.filterMap some _) = _
    rw [List.filterMap_some, List.map_map]
    exact List.map_id _
  have hlookup : ∀ tp, (Dict.ofList (sortedItems d)).lookup tp = d.lookup tp :=
    Dict.lookup_ofList_of_perm (perm_sortedItems d)
  have hne : (Dict.ofList (sortedItems d)).entries ≠ [] := by
    intro hnil
    refine hd (entries_eq_nil_of_lookup (fun tp => ?_))
    rw [← hlookup tp]
    exact lookup_of_entries_eq_nil hnil tp
  unfold normalizeCheckpointOffsets
  rw [hitems, if_pos hne]
  exact hlookup tp

namespace CursorState

/-- **A checkpoint round trip.** What a source is resumed with, from the
checkpoint a coherent cursor gives, is what the cursor had processed. -/
theorem lookup_resumedOffsets_currentCheckpoint {c : CursorState} (h : c.Coherent)
    (tp : TopicPartition) :
    (resumedOffsets (c.currentCheckpoint.1.map Checkpoint.saved)).lookup tp
      = c.processedOffsets.lookup tp := by
  unfold currentCheckpoint
  cases hseen : c.lastSeen with
  | none =>
    have hempty : c.processedOffsets.entries = [] := by
      by_contra hne
      exact h.seen hne hseen
    show (∅ : OffsetMap).lookup tp = _
    rw [AList.lookup_empty, lookup_of_entries_eq_nil hempty]
  | some last =>
    obtain ⟨lastTp, offset⟩ := last
    by_cases hempty : c.processedOffsets.entries = []
    · simp only [if_pos hempty, Option.map_none, resumedOffsets, AList.lookup_empty]
      rw [lookup_of_entries_eq_nil hempty]
    · have hbuilt : (normalizeCheckpointOffsets (c.buildCheckpoint lastTp offset).saved).lookup tp
          = c.processedOffsets.lookup tp :=
        lookup_normalizeCheckpointOffsets rfl hempty tp
      simp only [if_neg hempty]
      cases hdirty : c.checkpointDirty with
      | true => exact hbuilt
      | false =>
        cases hcache : c.checkpointCache with
        | none => exact hbuilt
        | some checkpoint =>
          exact lookup_normalizeCheckpointOffsets (h.cache hdirty checkpoint hcache) hempty tp

end CursorState

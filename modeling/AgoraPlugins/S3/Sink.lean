import AgoraPlugins.Machine
import AgoraPlugins.Reply
import Mathlib.Data.List.Nodup

/-!
# The S3 sink

Records are written to a file on the local disk. When a record belongs to another partition,
when the file is full, and when the sink is closed, the file is closed and uploaded as an
object that must not be there yet. Only after that is the file forgotten: an upload that fails
leaves it behind, closed, and what is written next goes there.

The file is written by a sink of the core library, which is not known here but for what it has in
the file after some calls (`LocalSink`). That it has what it was given is a hypothesis (`Saves`),
which says nothing of a sink that has been closed. An upload may fail before or after the object
has been stored. Every record that is given to a local sink gets a number, so that it can be told
which of them an object holds; a record is `accepted` when its `write` returns.
-/

open Effect

/-- The formats of a dataset's files. -/
inductive DatasetFormat where
  | jsonl
  | csv
  | parquet
  deriving DecidableEq

/-- The extension of a file of the format. -/
def DatasetFormat.extension : DatasetFormat → String
  | .jsonl => "jsonl"
  | .csv => "csv"
  | .parquet => "parquet"

/-- A call of a local sink, and whether it returned. -/
inductive LocalCall (ρ : Type) where
  | write (entry : ρ × ℕ) (returned : Bool)
  | flush (returned : Bool)
  | close (returned : Bool)

def LocalCall.isClose {ρ : Type} : LocalCall ρ → Bool
  | .close _ => true
  | _ => false

/-- **A sink that writes a local file**, as far as it matters here. -/
structure LocalSink (ρ : Type) where
  /-- what each write raises after a call of `close`, if each does -/
  refusal : Option Exc
  /-- the records of the file when the sink is closed after these calls -/
  contents : List (LocalCall ρ) → List (ρ × ℕ)

/-- **A local sink saves what it takes**: a record whose write returns is the last one of the file,
unless the sink has been closed; one whose write raises may be; and neither a flush nor a close
changes anything. -/
structure LocalSink.Saves {ρ : Type} (sink : LocalSink ρ) : Prop where
  empty : sink.contents [] = []
  wrote : ∀ calls entry, calls.any LocalCall.isClose = false →
    sink.contents (calls ++ [.write entry true]) = sink.contents calls ++ [entry]
  failed : ∀ calls entry, sink.contents (calls ++ [.write entry false]) = sink.contents calls
    ∨ sink.contents (calls ++ [.write entry false]) = sink.contents calls ++ [entry]
  flushed : ∀ calls returned,
    sink.contents (calls ++ [.flush returned]) = sink.contents calls
  closed : ∀ calls returned,
    sink.contents (calls ++ [.close returned]) = sink.contents calls

/-- **A write that raises leaves nothing in the file.** -/
def LocalSink.Drops {ρ : Type} (sink : LocalSink ρ) : Prop :=
  ∀ calls entry, sink.contents (calls ++ [.write entry false]) = sink.contents calls

/-- **A file on the local disk**, with the object that it will be. -/
structure ActiveFile (ρ : Type) where
  partition : Option String
  key : String
  /-- the calls of its sink -/
  calls : List (LocalCall ρ) := []
  recordCount : ℕ := 0
  /-- its object has been stored, whatever `put_object` then returned -/
  stored : Bool := false

/-- Whether the sink of a file has been closed. -/
def ActiveFile.closed {ρ : Type} (file : ActiveFile ρ) : Bool :=
  file.calls.any LocalCall.isClose

/-- The file after another call of its sink. -/
def ActiveFile.called {ρ : Type} (file : ActiveFile ρ) (call : LocalCall ρ) : ActiveFile ρ :=
  { file with calls := file.calls ++ [call] }

/-- The state of a sink, its bucket's objects, and the replies it will meet. -/
structure S3SinkState (ρ : Type) where
  connected : Bool := false
  fileIndex : ℕ := 0
  active : Option (ActiveFile ρ) := none
  /-- the objects it has stored, whatever `put_object` then returned -/
  objects : List (String × List (ρ × ℕ)) := []
  script : List Reply := []
  /-- how many records have been given to local sinks -/
  writes : ℕ := 0
  accepted : List (ρ × ℕ) := []

/-- The settings of a sink. -/
structure S3Sink (ρ : Type) where
  keyPrefix : String := ""
  runId : String
  format : DatasetFormat
  filePrefix : String := "part"
  partitionPathFn : ρ → Except Exc (Option String)
  localSink : LocalSink ρ
  maxRecordsPerFile : ℕ
  maxRecordsPerFile_pos : 0 < maxRecordsPerFile

/-- The computations of a sink. -/
abbrev S3SinkM (ρ β : Type) := EStateM Exc (S3SinkState ρ) β

namespace S3Sink

variable {ρ β : Type}

/-! ## Object keys -/

/-- `value.strip("/")`. -/
def stripSlashes (value : String) : String :=
  let isSlash (c : Char) : Bool := c == '/'
  String.ofList (((value.toList.dropWhile isSlash).reverse.dropWhile isSlash).reverse)

/-- **`normalize_partition`.** -/
def normalizePartition : Option String → Option String
  | none => none
  | some value => if stripSlashes value = "" then none else some (stripSlashes value)

/-- A number with five digits, or more. -/
def fiveDigits (n : ℕ) : String := "".pushn '0' (5 - (toString n).length) ++ toString n

variable (cfg : S3Sink ρ)

/-- **`build_object_key`.** -/
def buildObjectKey (partition : Option String) (fileIndex : ℕ) : String :=
  let pieces := [stripSlashes cfg.keyPrefix, "run_id=" ++ cfg.runId, partition.getD ""].filter
    (fun piece => piece ≠ "")
  let filename := cfg.filePrefix ++ "-" ++ fiveDigits fileIndex ++ "." ++ cfg.format.extension
  "/".intercalate (pieces ++ [filename])

/-! ## Files -/

/-- What may raise takes the next reply. -/
def await : S3SinkM ρ PUnit :=
  zoom S3SinkState.script (fun s script => { s with script }) nextReply

/-- A value, or what getting it raised. -/
def ofExcept : Except Exc β → S3SinkM ρ β
  | .ok b => pure b
  | .error e => throw e

/-- The sink of the open file has been called. -/
def called (call : LocalCall ρ) (s : S3SinkState ρ) : S3SinkState ρ :=
  { s with active := s.active.map (fun file => file.called call) }

/-- **A call of the local sink** returns or raises. -/
def callLocal (call : Bool → LocalCall ρ) : S3SinkM ρ PUnit := do
  tryCatch await (fun e => do
    modify (called (call false))
    throw e)
  modify (called (call true))

/-- The object is there. -/
def putInto (key : String) (body : List (ρ × ℕ)) (s : S3SinkState ρ) : S3SinkState ρ :=
  { s with
    objects := s.objects ++ [(key, body)]
    active := s.active.map (fun file => { file with stored := true }) }

/-- `put_object` with `IfNoneMatch="*"`. -/
def putObject (key : String) (body : List (ρ × ℕ)) : S3SinkM ρ PUnit := do
  await
  let s ← get
  if key ∈ s.objects.map Prod.fst then throw (.exception "ClientError" "PreconditionFailed")
  else do
    modify (putInto key body)
    await

/-- The state of a file that is forgotten. -/
def forget (s : S3SinkState ρ) : S3SinkState ρ :=
  { s with active := none, fileIndex := s.fileIndex + 1 }

/-- **`finalize_active_file`.** -/
def finalizeActiveFile : S3SinkM ρ PUnit := do
  match (← get).active with
  | none => throw (.exception "AssertionError" "")
  | some file => do
    callLocal .close
    await -- its contents
    putObject file.key (cfg.localSink.contents file.calls)
    await -- the local file is deleted
    modify forget

/-- **`flush_active_file`.** -/
def flushActiveFile : S3SinkM ρ PUnit := do
  match (← get).active with
  | none => pure ⟨⟩
  | some _ => callLocal .flush

/-- **`open_active_file`.** -/
def openActiveFile (partition : Option String) : S3SinkM ρ PUnit := do
  await -- a temporary file
  await -- the local sink is opened
  modify (fun s => { s with
    active := some { partition, key := cfg.buildObjectKey partition s.fileIndex } })

/-- The next number is given to a record. -/
def number (s : S3SinkState ρ) : S3SinkState ρ := { s with writes := s.writes + 1 }

/-- The local sink's `write`. -/
def writeLocal (record : ρ) : S3SinkM ρ (ρ × ℕ) := do
  let s ← get
  match s.active with
  | none => throw (.exception "AssertionError" "")
  | some file => do
    modify number
    match (if file.closed then cfg.localSink.refusal else none) with
    | some e => do
      modify (called (.write (record, s.writes) false))
      throw e
    | none => do
      callLocal (.write (record, s.writes))
      pure (record, s.writes)

/-! ## The sink -/

/-- `open`, if there is no client. -/
def connect : S3SinkM ρ PUnit := do
  if (← get).connected then pure ⟨⟩
  else do
    await
    modify (fun s => { s with connected := true })

/-- The file of another partition is uploaded. -/
def leavePartition (partition : Option String) : S3SinkM ρ PUnit := do
  match (← get).active with
  | none => pure ⟨⟩
  | some file =>
    if file.partition ≠ partition ∧ 0 < file.recordCount then cfg.finalizeActiveFile
    else pure ⟨⟩

/-- A file is opened if none is. -/
def enterPartition (partition : Option String) : S3SinkM ρ PUnit := do
  match (← get).active with
  | none => cfg.openActiveFile partition
  | some _ => pure ⟨⟩

/-- One more record in the active file. -/
def countRecord (s : S3SinkState ρ) : S3SinkState ρ :=
  { s with active := s.active.map (fun file =>
    { file with recordCount := file.recordCount + 1 }) }

/-- What `write` does until the record is at the local file. -/
def prepare (record : ρ) : S3SinkM ρ PUnit := do
  connect
  let partition ← ofExcept ((cfg.partitionPathFn record).map normalizePartition)
  cfg.leavePartition partition
  cfg.enterPartition partition

/-- What it does until the record is in the file, and counted. -/
def store (record : ρ) : S3SinkM ρ (ρ × ℕ) := do
  cfg.prepare record
  let entry ← cfg.writeLocal record
  modify countRecord
  pure entry

/-- The file has as many records as it may. -/
def Full (s : S3SinkState ρ) : Prop :=
  ∃ file, s.active = some file ∧ cfg.maxRecordsPerFile ≤ file.recordCount

instance (s : S3SinkState ρ) : Decidable (cfg.Full s) :=
  decidable_of_iff (∃ file ∈ s.active, cfg.maxRecordsPerFile ≤ file.recordCount) Iff.rfl

/-- A full file is uploaded. -/
def rollOver : S3SinkM ρ PUnit := do
  if cfg.Full (← get) then cfg.finalizeActiveFile else pure ⟨⟩

/-- **`write`.** -/
def write (record : ρ) : S3SinkM ρ PUnit := do
  let entry ← cfg.store record
  cfg.rollOver
  modify (fun s => { s with accepted := s.accepted ++ [entry] })

/-- **`write_batch`.** -/
def writeBatch (records : List ρ) : S3SinkM ρ PUnit := records.forM cfg.write

/-- **`flush`.** -/
def flush : S3SinkM ρ PUnit := flushActiveFile

/-- **`close`.** -/
def close : S3SinkM ρ PUnit := do
  match (← get).active with
  | none => await -- the client is closed
  | some _ => do
    cfg.finalizeActiveFile
    await

/-- A call of the sink. -/
inductive Call (ρ : Type) where
  | write (record : ρ)
  | writeBatch (records : List ρ)
  | flush
  | close

def call : Call ρ → S3SinkM ρ PUnit
  | .write record => cfg.write record
  | .writeBatch records => cfg.writeBatch records
  | .flush => flush
  | .close => cfg.close

/-- **One call**, whichever way it ends. -/
def step (s : S3SinkState ρ) (c : Call ρ) : Option (S3SinkState ρ) :=
  some (finalState (cfg.call c) s)

end S3Sink


/-! ## Where the records are -/

/-- The records of the objects. -/
def S3SinkState.uploaded {ρ : Type} (s : S3SinkState ρ) : List (ρ × ℕ) :=
  s.objects.flatMap Prod.snd

namespace S3Sink

variable {ρ β : Type} (cfg : S3Sink ρ)

/-- The records of the open file, unless its object is there. -/
def pending (s : S3SinkState ρ) : List (ρ × ℕ) :=
  match s.active with
  | none => []
  | some file => if file.stored then [] else cfg.localSink.contents file.calls

/-- All the records that the sink has. -/
def stored (s : S3SinkState ρ) : List (ρ × ℕ) := s.uploaded ++ cfg.pending s

/-- **The stored records are in the order of their numbers**, and a file whose object is there is
not uploaded again, and closed. -/
structure Tidy (s : S3SinkState ρ) : Prop where
  increasing : ((cfg.stored s).map Prod.snd).Pairwise (· < ·)
  fresh : ∀ entry ∈ cfg.stored s, entry.2 < s.writes
  kept : ∀ file, s.active = some file → file.stored = true →
    file.key ∈ s.objects.map Prod.fst ∧ file.closed = true

variable {cfg}

section Ensures

variable {s : S3SinkState ρ}

/-- A wait that ends in either way, of which the reply says which. -/
theorem ensures_await {Q : Except Exc PUnit → S3SinkState ρ → Prop}
    (hok : ∀ script, Q (.ok ⟨⟩) { s with script })
    (herror : ∀ e script, Q (.error e) { s with script }) : Ensures await s Q := by
  unfold await
  rw [ensures_zoom]
  exact ensures_nextReply hok herror

/-- **A call of the local sink** is noted with how it ended. -/
theorem ensures_callLocal {call : Bool → LocalCall ρ} {Q : Except Exc PUnit → S3SinkState ρ → Prop}
    (hok : ∀ script, Q (.ok ⟨⟩) (called (call true) { s with script }))
    (herror : ∀ e script, Q (.error e) (called (call false) { s with script })) :
    Ensures (callLocal call) s Q := by
  unfold callLocal
  rw [ensures_bind, ensures_tryCatch]
  refine ensures_await (fun script => ?_) (fun e script => ?_)
  · dsimp only
    rw [ensures_modify]
    exact hok script
  · dsimp only
    rw [ensures_bind, ensures_modify]
    exact herror e script

/-- **A request to store an object** is refused if there is one under its key; else it may have
stored it whether or not it says so. -/
theorem ensures_putObject {key : String} {body : List (ρ × ℕ)}
    {Q : Except Exc PUnit → S3SinkState ρ → Prop}
    (hraised : ∀ e script, Q (.error e) { s with script })
    (hput : key ∉ s.objects.map Prod.fst →
      (∀ script, Q (.ok ⟨⟩) { putInto key body s with script })
        ∧ ∀ e script, Q (.error e) { putInto key body s with script }) :
    Ensures (putObject key body) s Q := by
  unfold putObject
  rw [ensures_bind]
  refine ensures_await (fun script => ?_) hraised
  dsimp only
  rw [ensures_bind, ensures_get]
  dsimp only
  split
  · exact hraised _ script
  · rename_i hkey
    rw [ensures_bind, ensures_modify]
    exact ensures_await (hput hkey).1 (hput hkey).2

/-- **What an upload can do.** It raises and the file has been closed, or was to be; or the object
is stored, which was not there, and it raises or the file is forgotten. -/
theorem ensures_finalizeActiveFile {file : ActiveFile ρ} (hactive : s.active = some file)
    {Q : Except Exc PUnit → S3SinkState ρ → Prop}
    (hraised : ∀ e returned script, Q (.error e) (called (.close returned) { s with script }))
    (hput : file.key ∉ s.objects.map Prod.fst →
      (∀ e script, Q (.error e) (putInto file.key (cfg.localSink.contents file.calls)
        (called (.close true) { s with script })))
      ∧ ∀ script, Q (.ok ⟨⟩) (forget (putInto file.key (cfg.localSink.contents file.calls)
        (called (.close true) { s with script })))) :
    Ensures cfg.finalizeActiveFile s Q := by
  unfold finalizeActiveFile
  rw [ensures_bind, ensures_get]
  dsimp only
  rw [hactive]
  dsimp only
  rw [ensures_bind]
  refine ensures_callLocal (fun _ => ?_) (fun e script => hraised e false script)
  dsimp only
  rw [ensures_bind]
  refine ensures_await (fun _ => ?_) (fun e script => hraised e true script)
  dsimp only
  rw [ensures_bind]
  refine ensures_putObject (fun e script => hraised e true script)
    (fun hkey => ⟨fun _ => ?_, (hput hkey).1⟩)
  dsimp only
  rw [ensures_bind]
  exact ensures_await (fun script => (hput hkey).2 script) (hput hkey).1

end Ensures

/-! ## What stays where it is -/

/-- **Nothing is taken and nothing is lost**: the records stored, in objects and in the open
file, are the same ones. -/
def Still (cfg : S3Sink ρ) (s t : S3SinkState ρ) : Prop :=
  cfg.Tidy s → cfg.Tidy t ∧ cfg.stored t = cfg.stored s ∧ t.accepted = s.accepted

instance : IsPreorder (S3SinkState ρ) cfg.Still where
  refl _ h := ⟨h, rfl, rfl⟩
  trans _ _ _ h h' hs := by
    obtain ⟨ht, hstored, haccepted⟩ := h hs
    obtain ⟨hu, hstored', haccepted'⟩ := h' ht
    exact ⟨hu, hstored'.trans hstored, haccepted'.trans haccepted⟩

section Still

variable {s t : S3SinkState ρ} {file : ActiveFile ρ}

/-- Nothing changes where what is stored stays the same. -/
theorem still_of_stored (hstored : cfg.stored t = cfg.stored s) (hwrites : s.writes ≤ t.writes)
    (haccepted : t.accepted = s.accepted)
    (hkept : cfg.Tidy s → ∀ file, t.active = some file → file.stored = true →
      file.key ∈ t.objects.map Prod.fst ∧ file.closed = true) : cfg.Still s t := by
  intro hs
  refine ⟨⟨?_, fun entry hentry => ?_, hkept hs⟩, hstored, haccepted⟩
  · rw [hstored]
    exact hs.increasing
  · rw [hstored] at hentry
    exact Nat.lt_of_lt_of_le (hs.fresh entry hentry) hwrites

theorem still_script (script : List Reply) : cfg.Still s { s with script } :=
  still_of_stored rfl (Nat.le_refl _) rfl (fun hs => hs.kept)

/-- Without an open file all records are in objects. -/
theorem stored_of_forgotten (hactive : s.active = none) : cfg.stored s = s.uploaded := by
  rw [stored, pending, hactive]
  exact List.append_nil _

/-- What the open file has is stored after what has been uploaded. -/
theorem stored_of_active (hactive : s.active = some file) (hstored : file.stored = false) :
    cfg.stored s = s.uploaded ++ cfg.localSink.contents file.calls := by
  rw [stored, pending, hactive]
  dsimp only
  rw [hstored]
  rfl

/-- What a call of the local sink makes of the stored records. -/
theorem stored_called (hactive : s.active = some file) (call : LocalCall ρ) (script : List Reply) :
    cfg.stored (called call { s with script })
      = s.uploaded
        ++ if file.stored then [] else cfg.localSink.contents (file.calls ++ [call]) := by
  rw [stored, pending]
  unfold called
  dsimp only
  rw [hactive]
  rfl

/-- A file is closed from the call that closes it on. -/
theorem closed_called (file : ActiveFile ρ) (call : LocalCall ρ) :
    (file.called call).closed = (file.closed || call.isClose) := by
  simp [ActiveFile.closed, ActiveFile.called]

/-- A call that leaves the file as it is. -/
theorem still_called {call : LocalCall ρ}
    (hcontents : ∀ file, s.active = some file → file.stored = false →
      cfg.localSink.contents (file.calls ++ [call]) = cfg.localSink.contents file.calls)
    (script : List Reply) : cfg.Still s (called call { s with script }) := by
  rcases Option.eq_none_or_eq_some s.active with hactive | ⟨file, hactive⟩
  · have hsame : called call { s with script } = { s with script } := by
      simp [called, hactive]
    rw [hsame]
    exact still_script script
  · have hfile : (called call { s with script }).active = some (file.called call) := by
      simp [called, hactive]
    refine still_of_stored ?_ (Nat.le_refl _) rfl (fun hs file' hfile' hstored => ?_)
    · rw [stored_called hactive, stored, pending, hactive]
      dsimp only
      cases hstored : file.stored with
      | true => rfl
      | false => rw [hcontents file hactive hstored]
    · rw [hfile] at hfile'
      cases hfile'
      obtain ⟨hkey, hclosed⟩ := hs.kept file hactive hstored
      refine ⟨hkey, ?_⟩
      rw [closed_called, hclosed]
      rfl

/-- The records of an object that was not there are those of the open file. -/
theorem stored_of_notMem (hs : cfg.Tidy s) (hactive : s.active = some file)
    (hkey : file.key ∉ s.objects.map Prod.fst) :
    cfg.stored s = s.uploaded ++ cfg.localSink.contents file.calls := by
  refine stored_of_active hactive ?_
  rw [← Bool.not_eq_true]
  exact fun hstored => hkey (hs.kept file hactive hstored).1

/-- **A file that is uploaded** is stored as an object as it was stored before. -/
theorem still_put (hactive : s.active = some file) (hkey : file.key ∉ s.objects.map Prod.fst)
    (script : List Reply) :
    cfg.Still s (putInto file.key (cfg.localSink.contents file.calls)
      (called (.close true) { s with script })) := by
  intro hs
  have hput : cfg.stored (putInto file.key (cfg.localSink.contents file.calls)
      (called (.close true) { s with script })) = cfg.stored s := by
    rw [stored_of_notMem hs hactive hkey, stored, pending]
    simp [S3SinkState.uploaded, putInto, called, hactive]
  refine still_of_stored hput (Nat.le_refl _) rfl (fun _ file' hfile' _ => ?_) hs
  simp only [putInto, called, hactive, Option.map_some, Option.some.injEq] at hfile'
  subst hfile'
  simp [putInto, called, ActiveFile.called, ActiveFile.closed, LocalCall.isClose]

theorem still_forget (hactive : s.active = some file) (hkey : file.key ∉ s.objects.map Prod.fst)
    (script : List Reply) :
    cfg.Still s (forget (putInto file.key (cfg.localSink.contents file.calls)
      (called (.close true) { s with script }))) := by
  intro hs
  refine still_of_stored ?_ (Nat.le_refl _) rfl (fun _ _ hfile' => by cases hfile') hs
  rw [stored_of_notMem hs hactive hkey, stored_of_forgotten rfl]
  simp [S3SinkState.uploaded, putInto, called, forget]

end Still

section Saves

variable (hsaves : cfg.localSink.Saves)
include hsaves

/-- **`_finalize_active_file`** changes nothing that is stored, and leaves no file if it returns. -/
theorem ensures_finalizeActiveFile_still (s : S3SinkState ρ) :
    Ensures cfg.finalizeActiveFile s
      (fun r t => cfg.Still s t ∧ (r = .ok ⟨⟩ → t.active = none)) := by
  cases hactive : s.active with
  | none =>
    unfold finalizeActiveFile
    rw [ensures_bind, ensures_get]
    dsimp only
    rw [hactive]
    exact ⟨refl_of cfg.Still s, (by rintro ⟨⟩)⟩
  | some file =>
    refine ensures_finalizeActiveFile hactive
      (fun e returned script => ⟨still_called (fun _ _ _ => hsaves.closed _ _) script,
        (by rintro ⟨⟩)⟩) (fun hkey => ⟨?_, ?_⟩)
    · exact fun e script => ⟨still_put hactive hkey script, (by rintro ⟨⟩)⟩
    · exact fun script => ⟨still_forget hactive hkey script, fun _ => rfl⟩

theorem respects_finalizeActiveFile : Respects cfg.Still cfg.finalizeActiveFile :=
  fun s => (ensures_finalizeActiveFile_still hsaves s).mono (fun _ _ h => h.1)

omit hsaves in
/-- Connecting stores nothing and opens no file. -/
theorem ensures_connect (s : S3SinkState ρ) :
    Ensures connect s (fun _ t => cfg.Still s t ∧ t.active = s.active) := by
  unfold connect
  rw [ensures_bind, ensures_get]
  dsimp only
  split
  · exact ⟨refl_of cfg.Still s, rfl⟩
  · rw [ensures_bind]
    refine ensures_await (fun script => ?_) (fun _ script => ⟨still_script script, rfl⟩)
    rw [ensures_modify]
    exact ⟨still_of_stored rfl (Nat.le_refl _) rfl (fun hs => hs.kept), rfl⟩

/-- The open file is left, or it is of the partition or empty. -/
theorem ensures_leavePartition (partition : Option String) (s : S3SinkState ρ) :
    Ensures (cfg.leavePartition partition) s (fun r t => cfg.Still s t ∧ (r = .ok ⟨⟩ →
      t.active = none ∨ t.active = s.active
        ∧ ∀ file, s.active = some file → file.partition = partition ∨ file.recordCount = 0)) := by
  unfold leavePartition
  rw [ensures_bind, ensures_get]
  dsimp only
  cases hactive : s.active with
  | none => exact ⟨refl_of cfg.Still s, fun _ => .inl hactive⟩
  | some file =>
    dsimp only
    split
    · exact (ensures_finalizeActiveFile_still hsaves s).mono
        (fun r t ht => ⟨ht.1, fun hr => .inl (ht.2 hr)⟩)
    · rename_i hstays
      refine ⟨refl_of cfg.Still s, fun _ => .inr ⟨hactive, ?_⟩⟩
      rintro file' ⟨⟩
      rw [not_and_or, not_not, Nat.not_lt, Nat.le_zero] at hstays
      exact hstays

/-- A file is opened when there is none. -/
theorem ensures_enterPartition (partition : Option String) (s : S3SinkState ρ) :
    Ensures (cfg.enterPartition partition) s (fun _ t => cfg.Still s t
      ∧ ∀ file, t.active = some file → file.closed = true → s.active = some file) := by
  unfold enterPartition
  rw [ensures_bind, ensures_get]
  dsimp only
  cases hactive : s.active with
  | some file => exact ⟨refl_of cfg.Still s, fun file' hfile' _ => hactive ▸ hfile'⟩
  | none =>
    dsimp only
    have hsame : ∀ script, cfg.Still s { s with script }
        ∧ ∀ file, s.active = some file → file.closed = true → none = some file :=
      fun script => ⟨still_script script, fun file hfile _ => hactive ▸ hfile⟩
    unfold openActiveFile
    rw [ensures_bind]
    refine ensures_await (fun _ => ?_) (fun _ => hsame)
    dsimp only
    rw [ensures_bind]
    refine ensures_await (fun _ => ?_) (fun _ => hsame)
    rw [ensures_modify]
    refine ⟨still_of_stored ?_ (Nat.le_refl _) rfl ?_, ?_⟩
    · rw [stored_of_forgotten hactive, stored_of_active rfl rfl, hsaves.empty]
      exact List.append_nil _
    · rintro _ file ⟨⟩ hstored
      cases hstored
    · rintro file ⟨⟩ hclosed
      cases hclosed

/-- The active file is flushed, and nothing is stored that was not. -/
theorem respects_flushActiveFile : Respects cfg.Still (flushActiveFile : S3SinkM ρ PUnit) := by
  refine respects_get.bind (fun s => ?_)
  split
  · exact respects_pure _
  · exact fun s => ensures_callLocal (still_called (fun _ _ _ => hsaves.flushed _ _))
      (fun _ => still_called (fun _ _ _ => hsaves.flushed _ _))

end Saves

/-- Counting a record changes none. -/
theorem still_countRecord (s : S3SinkState ρ) : cfg.Still s (countRecord s) := by
  cases hactive : s.active with
  | none =>
    refine still_of_stored ?_ (Nat.le_refl _) rfl (fun hs file hfile => ?_)
    · simp [stored, S3SinkState.uploaded, pending, countRecord, hactive]
    · simp [countRecord, hactive] at hfile
  | some file =>
    refine still_of_stored ?_ (Nat.le_refl _) rfl (fun hs file' hfile' hmem => ?_)
    · simp [stored, S3SinkState.uploaded, pending, countRecord, hactive]
    · simp only [countRecord, hactive, Option.map_some, Option.some.injEq] at hfile'
      subst hfile'
      exact hs.kept file hactive hmem

/-! ## Taking a record -/

/-- **One record is taken.** -/
def Takes (cfg : S3Sink ρ) (entry : ρ × ℕ) (s t : S3SinkState ρ) : Prop :=
  cfg.Tidy s → cfg.Tidy t ∧ cfg.stored t = cfg.stored s ++ [entry] ∧ t.accepted = s.accepted

theorem Takes.of_still {s t u : S3SinkState ρ} {entry : ρ × ℕ} (h : cfg.Takes entry s t)
    (h' : cfg.Still t u) : cfg.Takes entry s u := by
  intro hs
  obtain ⟨ht, hstored, haccepted⟩ := h hs
  obtain ⟨hu, hstored', haccepted'⟩ := h' ht
  exact ⟨hu, hstored'.trans hstored, haccepted'.trans haccepted⟩

theorem Takes.after {s t u : S3SinkState ρ} {entry : ρ × ℕ} (h : cfg.Still s t)
    (h' : cfg.Takes entry t u) : cfg.Takes entry s u := by
  intro hs
  obtain ⟨ht, hstored, haccepted⟩ := h hs
  obtain ⟨hu, hstored', haccepted'⟩ := h' ht
  exact ⟨hu, by rw [hstored', hstored], haccepted'.trans haccepted⟩

/-- **Nothing is taken**, unless a local sink keeps the record of a write that raises. -/
def Spares (cfg : S3Sink ρ) (s t : S3SinkState ρ) : Prop :=
  cfg.Still s t ∨ ¬ cfg.localSink.Drops ∧ ∃ entry, cfg.Takes entry s t

theorem Spares.after {s t u : S3SinkState ρ} (h : cfg.Still s t) (h' : cfg.Spares t u) :
    cfg.Spares s u := by
  rcases h' with h' | ⟨hkeeps, entry, h'⟩
  · exact .inl (trans_of cfg.Still h h')
  · exact .inr ⟨hkeeps, entry, .after h h'⟩

/-- The stored records stay in front, whether or not another is taken. -/
theorem Spares.isPrefix {s t : S3SinkState ρ} (h : cfg.Spares s t) (hs : cfg.Tidy s) :
    cfg.Tidy t ∧ cfg.stored s <+: cfg.stored t ∧ t.accepted = s.accepted := by
  rcases h with h | ⟨_, entry, h⟩
  · obtain ⟨ht, hstored, haccepted⟩ := h hs
    exact ⟨ht, hstored ▸ List.prefix_refl _, haccepted⟩
  · obtain ⟨ht, hstored, haccepted⟩ := h hs
    exact ⟨ht, ⟨[entry], hstored.symm⟩, haccepted⟩

/-- What a call of the sink comes to that is given a record, whether it returns or raises. -/
def TakesOrSpares (cfg : S3Sink ρ) (s : S3SinkState ρ) :
    Except Exc (ρ × ℕ) → S3SinkState ρ → Prop
  | .ok entry, t => cfg.Takes entry s t
  | .error _, t => cfg.Spares s t

/-- **A record with the next number is taken** by the file, if it comes last. -/
theorem takes_called {s : S3SinkState ρ} {file : ActiveFile ρ} (hactive : s.active = some file)
    {call : LocalCall ρ} {record : ρ} (hstored : file.stored = false)
    (hcontents : cfg.localSink.contents (file.calls ++ [call])
      = cfg.localSink.contents file.calls ++ [(record, s.writes)]) (script : List Reply) :
    cfg.Takes (record, s.writes) s (called call { number s with script }) := by
  have hactive' : (number s).active = some file := hactive
  have heq : cfg.stored (called call { number s with script })
      = cfg.stored s ++ [(record, s.writes)] := by
    rw [stored_called hactive', stored_of_active hactive hstored, hstored, hcontents,
      List.append_assoc]
    rfl
  intro hs
  refine ⟨⟨?_, fun entry hentry => ?_, fun file' hfile' hstored' => ?_⟩, heq, rfl⟩
  · rw [heq, List.map_append, List.pairwise_append]
    refine ⟨hs.increasing, List.pairwise_singleton _ _, fun n hn m hm => ?_⟩
    obtain ⟨entry, hentry, rfl⟩ := List.mem_map.1 hn
    rw [List.mem_singleton.1 hm]
    exact hs.fresh entry hentry
  · rw [heq] at hentry
    show entry.2 < s.writes + 1
    rcases List.mem_append.1 hentry with hentry | hentry
    · exact Nat.lt_succ_of_lt (hs.fresh entry hentry)
    · rw [List.mem_singleton.1 hentry]
      exact Nat.lt_succ_self _
  · simp only [called, number, hactive, Option.map_some, Option.some.injEq] at hfile'
    subst hfile'
    have hstored' : file.stored = true := hstored'
    rw [hstored] at hstored'
    cases hstored'

/-- A number for the next file stores nothing. -/
theorem still_number (s : S3SinkState ρ) : cfg.Still s (number s) :=
  still_of_stored rfl (Nat.le_succ _) rfl (fun hs => hs.kept)

/-- A write that raises. -/
theorem spares_called (hsaves : cfg.localSink.Saves) (s : S3SinkState ρ) (record : ρ)
    (script : List Reply) :
    cfg.Spares s (called (.write (record, s.writes) false) { number s with script }) := by
  by_cases hmore : ∃ file, s.active = some file ∧ file.stored = false
      ∧ cfg.localSink.contents (file.calls ++ [.write (record, s.writes) false])
        = cfg.localSink.contents file.calls ++ [(record, s.writes)]
  · obtain ⟨file, hactive, hstored, hcontents⟩ := hmore
    refine .inr ⟨fun hdrops => ?_, _, takes_called hactive hstored hcontents script⟩
    rw [hdrops] at hcontents
    simp at hcontents
  · refine .inl (trans_of cfg.Still (still_number s) (still_called (fun file hactive hstored => ?_)
      script))
    exact (hsaves.failed file.calls (record, s.writes)).resolve_right
      (fun hcontents => hmore ⟨file, hactive, hstored, hcontents⟩)

/-- **A record is written where it can be taken**: not to a file that has been closed, unless its
sink refuses it. -/
def MeetsOpenFile (cfg : S3Sink ρ) (s : S3SinkState ρ) : Prop :=
  cfg.localSink.refusal = none → ∀ file, s.active = some file → file.closed = false

/-- **What a local write can do**: its file has been called, or there is none. One that is closed
has not refused a record that is taken. -/
theorem ensures_writeLocal {record : ρ} {s : S3SinkState ρ}
    {Q : Except Exc (ρ × ℕ) → S3SinkState ρ → Prop}
    (hnone : s.active = none → ∀ e, Q (.error e) s)
    (hwrote : ∀ file, s.active = some file → (file.closed = true → cfg.localSink.refusal = none) →
      ∀ script, Q (.ok (record, s.writes))
        (called (.write (record, s.writes) true) { number s with script }))
    (hraised : ∀ e script, Q (.error e)
      (called (.write (record, s.writes) false) { number s with script })) :
    Ensures (cfg.writeLocal record) s Q := by
  unfold writeLocal
  rw [ensures_bind, ensures_get]
  dsimp only
  rcases Option.eq_none_or_eq_some s.active with hactive | ⟨file, hactive⟩
  · rw [hactive]
    exact hnone hactive _
  · rw [hactive]
    dsimp only
    rw [ensures_bind, ensures_modify]
    dsimp only
    split
    next e hrefused =>
      rw [ensures_bind, ensures_modify]
      exact hraised e s.script
    next hrefused =>
      rw [ensures_bind]
      refine ensures_callLocal (hwrote file hactive (fun hclosed => ?_)) hraised
      rw [if_pos hclosed] at hrefused
      exact hrefused

/-- The file takes a record, or raises. -/
theorem ensures_writeLocal_takes (hsaves : cfg.localSink.Saves) (record : ρ) {s : S3SinkState ρ}
    (hopen : cfg.MeetsOpenFile s) :
    Ensures (cfg.writeLocal record) s (cfg.TakesOrSpares s) := by
  refine ensures_writeLocal (fun _ _ => .inl (refl_of cfg.Still s))
    (fun file hactive hrefused script hs => ?_) (fun _ => spares_called hsaves s record)
  have hclosed : file.closed = false := by
    rw [← Bool.not_eq_true]
    intro hclosed
    have hopen' := hopen (hrefused hclosed) file hactive
    rw [hclosed] at hopen'
    cases hopen'
  have hstored : file.stored = false := by
    rw [← Bool.not_eq_true]
    intro hstored
    rw [(hs.kept file hactive hstored).2] at hclosed
    cases hclosed
  exact takes_called hactive hstored (hsaves.wrote _ _ hclosed) script hs

/-- **The file that a write finds is open**, or it is left. -/
def AvoidsClosed (cfg : S3Sink ρ) (record : ρ) (s : S3SinkState ρ) : Prop :=
  cfg.localSink.refusal = none → ∀ file, s.active = some file → file.closed = true →
    0 < file.recordCount
      ∧ ∀ path, cfg.partitionPathFn record = .ok path → file.partition ≠ normalizePartition path

/-- **Before the record is written** nothing is taken, and a file that is closed is the one that
was there, unless an upload has failed. -/
theorem ensures_prepare_still (hsaves : cfg.localSink.Saves) (record : ρ) (s : S3SinkState ρ) :
    Ensures (cfg.prepare record) s (fun r t => cfg.Still s t
      ∧ ∀ file, t.active = some file → file.closed = true →
        (∀ e, cfg.partitionPathFn record = .error e → r ≠ .ok ⟨⟩ ∧ s.active = some file)
          ∧ ∀ path, cfg.partitionPathFn record = .ok path → r = .ok ⟨⟩ → s.active = some file
            ∧ (file.partition = normalizePartition path ∨ file.recordCount = 0)) := by
  unfold prepare
  cases hpath : cfg.partitionPathFn record with
  | error e =>
    have hnone : ∀ path, (Except.error e : Except Exc (Option String)) ≠ .ok path := by
      intro path h
      cases h
    exact (ensures_connect s).bind
      (fun _ t ht => ⟨ht.1, fun file hfile _ =>
        ⟨fun _ _ => ⟨by simp, ht.2 ▸ hfile⟩, fun path h => absurd h (hnone path)⟩⟩)
      (fun _ t ht => ⟨ht.1, fun file hfile _ =>
        ⟨fun _ _ => ⟨by simp, ht.2 ▸ hfile⟩, fun path h => absurd h (hnone path)⟩⟩)
  | ok path =>
    have hno : ∀ e, (Except.ok path : Except Exc (Option String)) ≠ .error e := by
      intro e h
      cases h
    refine (ensures_connect s).bind (fun _ t ht => ?_)
      (fun _ _ ht => ⟨ht.1, fun _ _ _ =>
        ⟨fun e h => absurd h (hno e), fun _ _ => by rintro ⟨⟩⟩⟩)
    show Ensures (cfg.leavePartition (normalizePartition path) >>= fun _ => _) t _
    refine (ensures_leavePartition hsaves (normalizePartition path) t).bind (fun _ u hu => ?_)
      (fun _ _ hu => ⟨trans_of cfg.Still ht.1 hu.1, fun _ _ _ =>
        ⟨fun e h => absurd h (hno e), fun _ _ => by rintro ⟨⟩⟩⟩)
    refine (ensures_enterPartition hsaves (normalizePartition path) u).mono (fun r v hv => ?_)
    refine ⟨trans_of cfg.Still ht.1 (trans_of cfg.Still hu.1 hv.1), fun file hfile hclosed =>
      ⟨fun e h => absurd h (hno e), fun path' heq _ => ?_⟩⟩
    cases heq
    have hfile' := hv.2 file hfile hclosed
    rcases hu.2 rfl with hnone | ⟨hsame, hstays⟩
    · rw [hnone] at hfile'
      cases hfile'
    · rw [hsame] at hfile'
      exact ⟨ht.2 ▸ hfile', hstays file hfile'⟩

/-- **`store` takes the record**, or takes nothing. -/
theorem ensures_store (hsaves : cfg.localSink.Saves) {record : ρ} {s : S3SinkState ρ}
    (havoids : cfg.AvoidsClosed record s) :
    Ensures (cfg.store record) s (cfg.TakesOrSpares s) := by
  refine (ensures_prepare_still hsaves record s).bind (fun _ t ht => ?_) (fun _ _ ht => .inl ht.1)
  have hopen : cfg.MeetsOpenFile t := by
    intro hrefusal file hfile
    rw [← Bool.not_eq_true]
    intro hclosed
    obtain ⟨herror, hok⟩ := ht.2 file hfile hclosed
    cases hpath : cfg.partitionPathFn record with
    | error e => exact (herror e hpath).1 rfl
    | ok path =>
      obtain ⟨hactive, hstays⟩ := hok path hpath rfl
      obtain ⟨hpos, hne⟩ := havoids hrefusal file hactive hclosed
      exact hstays.elim (hne path hpath) (Nat.ne_of_gt hpos)
  refine (ensures_writeLocal_takes hsaves record hopen).bind (fun entry u hu => ?_)
    (fun _ _ hu => Spares.after ht.1 hu)
  rw [ensures_bind, ensures_modify]
  dsimp only
  rw [ensures_pure]
  exact (Takes.after ht.1 hu).of_still (still_countRecord u)

/-- **A file that is full** makes room for another one, and nothing that is stored changes. -/
theorem respects_rollOver (hsaves : cfg.localSink.Saves) : Respects cfg.Still cfg.rollOver := by
  refine respects_get.bind (fun s => ?_)
  split
  · exact respects_finalizeActiveFile hsaves
  · exact respects_pure _

/-- Accepting a record changes none. -/
theorem Tidy.accept {s : S3SinkState ρ} (hs : cfg.Tidy s) (entry : ρ × ℕ) :
    cfg.Tidy { s with accepted := s.accepted ++ [entry] } :=
  ⟨hs.increasing, hs.fresh, hs.kept⟩

/-- **A write** is accepted when it returns. One that raises may have had its record taken. -/
theorem ensures_write (hsaves : cfg.localSink.Saves) {record : ρ} {s : S3SinkState ρ}
    (havoids : cfg.AvoidsClosed record s) :
    Ensures (cfg.write record) s (fun r t => cfg.Tidy s → cfg.Tidy t ∧ match r with
      | .ok _ => ∃ entry, cfg.stored t = cfg.stored s ++ [entry]
        ∧ t.accepted = s.accepted ++ [entry]
      | .error _ => cfg.stored s <+: cfg.stored t ∧ t.accepted = s.accepted) := by
  refine (ensures_store hsaves havoids).bind (fun entry t ht => ?_)
    (fun e t ht hs => ht.isPrefix hs)
  refine (respects_rollOver hsaves t).bind (fun _ u hu => ?_) (fun _ u hu hs => ?_)
  · rw [ensures_modify]
    intro hs
    obtain ⟨htidy, hstored, haccepted⟩ := Takes.of_still ht hu hs
    refine ⟨htidy.accept entry, entry, hstored, ?_⟩
    show u.accepted ++ [entry] = _
    rw [haccepted]
  · obtain ⟨htidy, hstored, haccepted⟩ := Takes.of_still ht hu hs
    exact ⟨htidy, ⟨[entry], hstored.symm⟩, haccepted⟩

/-- **`close`** uploads what there is, and nothing else. -/
theorem ensures_close_still (hsaves : cfg.localSink.Saves) (s : S3SinkState ρ) :
    Ensures cfg.close s (fun r t => cfg.Still s t ∧ (r = .ok ⟨⟩ → t.active = none)) := by
  unfold close
  rw [ensures_bind, ensures_get]
  dsimp only
  split
  · rename_i hactive
    exact ensures_await (fun script => ⟨still_script script, fun _ => hactive⟩)
      (fun _ script => ⟨still_script script, (by rintro ⟨⟩)⟩)
  · refine (ensures_finalizeActiveFile_still hsaves s).bind (fun _ t ht => ?_)
      (fun _ _ ht => ⟨ht.1, (by rintro ⟨⟩)⟩)
    refine ensures_await (fun script => ⟨?_, fun _ => ht.2 rfl⟩)
      (fun _ script => ⟨?_, (by rintro ⟨⟩)⟩)
    · exact trans_of cfg.Still ht.1 (still_script script)
    · exact trans_of cfg.Still ht.1 (still_script script)

/-! ## The writes of a call -/

/-- A condition on the writes of a batch, each in the state that it is begun in. -/
def Each (cfg : S3Sink ρ) (p : ρ → S3SinkState ρ → Prop) : List ρ → S3SinkState ρ → Prop
  | [], _ => True
  | record :: records, s => p record s
      ∧ ∀ t, cfg.write record s = .ok ⟨⟩ t → cfg.Each p records t

/-- A condition on the writes of a call. -/
def EachWrite (cfg : S3Sink ρ) (p : ρ → S3SinkState ρ → Prop) (s : S3SinkState ρ) : Call ρ → Prop
  | .write record => p record s
  | .writeBatch records => cfg.Each p records s
  | .flush | .close => True

/-- What every write keeps a batch keeps. By induction on the batch. -/
theorem ensures_writeBatch {p : ρ → S3SinkState ρ → Prop} {I : S3SinkState ρ → Prop}
    (hwrite : ∀ record s, p record s → I s → Ensures (cfg.write record) s (fun _ t => I t))
    {records : List ρ} {s : S3SinkState ρ} (h : cfg.Each p records s) (hs : I s) :
    Ensures (cfg.writeBatch records) s (fun _ t => I t) := by
  unfold writeBatch
  induction records generalizing s with
  | nil => exact hs
  | cons record records ih =>
    have hrecord := hwrite record s h.1 hs
    show Ensures (cfg.write record >>= fun _ => records.forM cfg.write) s _
    rw [ensures_bind]
    cases hm : cfg.write record s with
    | error e t =>
      rw [ensures_iff_of_error hm] at hrecord ⊢
      exact hrecord
    | ok _ t =>
      rw [ensures_iff_of_ok hm] at hrecord ⊢
      exact ih (h.2 t hm) hrecord

/-! ## What a flush covers -/

/-- **Every accepted record is stored**, in an object or in the open file. -/
structure Booked (cfg : S3Sink ρ) (s : S3SinkState ρ) : Prop where
  tidy : cfg.Tidy s
  stored : s.accepted ⊆ cfg.stored s

/-- Where nothing changes that is stored, the books stay right. -/
theorem booked_of_still {s t : S3SinkState ρ} (h : cfg.Still s t) (hs : cfg.Booked s) :
    cfg.Booked t := by
  obtain ⟨ht, hstored, haccepted⟩ := h hs.tidy
  refine ⟨ht, ?_⟩
  rw [haccepted, hstored]
  exact hs.stored

/-- **A write that avoids a closed file** keeps the books right. -/
theorem ensures_write_booked (hsaves : cfg.localSink.Saves) (record : ρ) (s : S3SinkState ρ)
    (havoids : cfg.AvoidsClosed record s) (hs : cfg.Booked s) :
    Ensures (cfg.write record) s (fun _ t => cfg.Booked t) := by
  refine (ensures_write hsaves havoids).mono (fun r t h => ?_)
  obtain ⟨ht, h⟩ := h hs.tidy
  cases r with
  | ok _ =>
    obtain ⟨entry, hstored, haccepted⟩ := h
    refine ⟨ht, ?_⟩
    rw [hstored, haccepted]
    exact List.append_subset_of_subset_of_subset
      (List.subset_append_of_subset_left _ hs.stored) (List.subset_append_right _ _)
  | error _ =>
    refine ⟨ht, ?_⟩
    rw [h.2]
    exact fun e he => h.1.subset (hs.stored he)

/-- A sink that has not been used. -/
theorem booked_init (cfg : S3Sink ρ) (connected : Bool) (script : List Reply) :
    cfg.Booked { connected, script } :=
  ⟨⟨List.Pairwise.nil, fun _ h => absurd h List.not_mem_nil, fun _ h => by cases h⟩,
    List.nil_subset _⟩

/-- **Every call keeps the books.** -/
theorem booked_step (hsaves : cfg.localSink.Saves) {s t : S3SinkState ρ} {c : Call ρ}
    (hs : cfg.Booked s) (havoids : cfg.EachWrite cfg.AvoidsClosed s c)
    (h : cfg.step s c = some t) : cfg.Booked t := by
  cases h
  cases c with
  | write record => exact (ensures_write_booked hsaves record s havoids hs).finalState
  | writeBatch records =>
    exact (ensures_writeBatch (ensures_write_booked hsaves) havoids hs).finalState
  | flush => exact booked_of_still (respects_flushActiveFile hsaves s).finalState hs
  | close =>
    exact booked_of_still ((ensures_close_still hsaves s).mono (fun _ _ h => h.1)).finalState hs

theorem Tidy.nodup {s : S3SinkState ρ} (hs : cfg.Tidy s) : (cfg.stored s).Nodup := by
  refine List.Nodup.of_map Prod.snd ?_
  exact hs.increasing.imp Nat.ne_of_lt

/-- An accepted record of the open file is in no object. -/
theorem uploaded_iff {s : S3SinkState ρ} (hs : cfg.Booked s) :
    (∀ e ∈ s.accepted, e ∈ s.uploaded) ↔ ∀ e ∈ cfg.pending s, e ∉ s.accepted := by
  have hnodup : (s.uploaded ++ cfg.pending s).Nodup := hs.tidy.nodup
  constructor
  · intro h e hpending haccepted
    exact List.disjoint_of_nodup_append hnodup (h e haccepted) hpending
  · intro h e haccepted
    exact (List.mem_append.1 (hs.stored haccepted)).resolve_right
      (fun hpending => h e hpending haccepted)

/-- A flush stores nothing that was not stored. -/
theorem flush_uploaded_iff {s t : S3SinkState ρ} (hs : cfg.Booked s)
    (ht : cfg.step s .flush = some t) :
    (∀ e ∈ t.accepted, e ∈ t.uploaded) ↔ ∀ e ∈ cfg.pending s, e ∉ s.accepted := by
  cases ht
  have hflush : Ensures flush s (fun _ t => t.objects = s.objects ∧ t.accepted = s.accepted) := by
    unfold flush flushActiveFile
    rw [ensures_bind, ensures_get]
    dsimp only
    split
    · exact ⟨rfl, rfl⟩
    · exact ensures_callLocal (fun _ => ⟨rfl, rfl⟩) (fun _ _ => ⟨rfl, rfl⟩)
  obtain ⟨hobjects, haccepted⟩ := hflush.finalState
  rw [← uploaded_iff hs]
  show (∀ e ∈ (finalState flush s).accepted, e ∈ (finalState flush s).objects.flatMap Prod.snd) ↔ _
  rw [hobjects, haccepted]
  rfl

/-- **What a flush covers.** In a run of a sink in which no record is written to a file that has
been closed, a flush that returns has every record accepted before it in an object just when the
open file, unless its object is there, holds none. -/
theorem allSteps_flush_uploaded_iff (cfg : S3Sink ρ) (hsaves : cfg.localSink.Saves)
    (connected : Bool) (script : List Reply) (calls : List (Call ρ))
    (havoids : Machine.AllSteps cfg.step (fun s c _ => cfg.EachWrite cfg.AvoidsClosed s c)
      { connected, script } calls) :
    Machine.AllSteps cfg.step
      (fun s c t => c = .flush → raises (cfg.call c) s = false →
        ((∀ e ∈ t.accepted, e ∈ t.uploaded) ↔ ∀ e ∈ cfg.pending s, e ∉ s.accepted))
      { connected, script } calls := by
  have hstep : ∀ s c t, cfg.Booked s → cfg.EachWrite cfg.AvoidsClosed s c → cfg.step s c = some t →
      cfg.Booked t ∧ (c = .flush → raises (cfg.call c) s = false →
        ((∀ e ∈ t.accepted, e ∈ t.uploaded) ↔ ∀ e ∈ cfg.pending s, e ∉ s.accepted)) := by
    intro s c t hs hg ht
    refine ⟨booked_step hsaves hs hg ht, ?_⟩
    rintro rfl -
    exact flush_uploaded_iff hs ht
  exact Machine.allSteps_of_step hstep (booked_init cfg connected script) havoids

/-- A sink that refuses what comes after it has been closed. -/
theorem avoidsClosed_of_refuses (hrefuses : cfg.localSink.refusal ≠ none) (record : ρ)
    (s : S3SinkState ρ) : cfg.AvoidsClosed record s :=
  fun hnone => absurd hnone hrefuses

/-- A condition that always holds is met by each record. -/
theorem each_of_forall {p : ρ → S3SinkState ρ → Prop} (h : ∀ record s, p record s)
    (records : List ρ) (s : S3SinkState ρ) : cfg.Each p records s := by
  induction records generalizing s with
  | nil => trivial
  | cons record records ih => exact ⟨h record s, fun t _ => ih t⟩

theorem eachWrite_of_forall {p : ρ → S3SinkState ρ → Prop} (h : ∀ record s, p record s)
    (s : S3SinkState ρ) (c : Call ρ) : cfg.EachWrite p s c := by
  cases c with
  | write record => exact h record s
  | writeBatch records => exact each_of_forall h records s
  | flush => trivial
  | close => trivial

/-- **A local sink that refuses** what comes after its end is never written to then. -/
theorem allSteps_avoidsClosed (hrefuses : cfg.localSink.refusal ≠ none) (s : S3SinkState ρ)
    (calls : List (Call ρ)) :
    Machine.AllSteps cfg.step (fun s c _ => cfg.EachWrite cfg.AvoidsClosed s c) s calls :=
  Machine.allSteps_of_invariant (I := fun _ => True)
    (fun s c _ _ _ => ⟨trivial, eachWrite_of_forall (avoidsClosed_of_refuses hrefuses) s c⟩)
    trivial calls

/-- What is written by a call that returns. -/
def LocalCall.written : LocalCall ρ → List (ρ × ℕ)
  | .write entry true => [entry]
  | .write _ false | .flush _ | .close _ => []

/-- A local sink whose file has the records whose writes have returned, and that refuses what comes
after it has been closed. -/
def strictLocalSink (ρ : Type) : LocalSink ρ where
  refusal := some (.exception "ValueError" "I/O operation on closed file.")
  contents calls := calls.flatMap LocalCall.written

theorem saves_strictLocalSink : (strictLocalSink ρ).Saves where
  empty := rfl
  wrote _ _ _ := List.flatMap_append
  failed _ _ := .inl (List.flatMap_append.trans (List.append_nil _))
  flushed _ _ := List.flatMap_append.trans (List.append_nil _)
  closed _ _ := List.flatMap_append.trans (List.append_nil _)

theorem drops_strictLocalSink : (strictLocalSink ρ).Drops :=
  fun _ _ => List.flatMap_append.trans (List.append_nil _)

theorem refuses_strictLocalSink : (strictLocalSink ρ).refusal ≠ none := nofun

/-- A sink whose records all belong together, so many to a file. -/
def unpartitioned (maxRecordsPerFile : ℕ) (h : 0 < maxRecordsPerFile) : S3Sink String where
  runId := "run-1"
  format := .jsonl
  partitionPathFn _ := .ok none
  localSink := strictLocalSink String
  maxRecordsPerFile := maxRecordsPerFile
  maxRecordsPerFile_pos := h

theorem zero_lt_two_records : 0 < 2 := by decide

/-- The first flush covers nothing, and the one after the file is full covers what it has. -/
theorem allSteps_flush_uploaded_iff_full :
    Machine.AllSteps (unpartitioned 2 zero_lt_two_records).step
        (fun s c t => c = .flush → raises ((unpartitioned 2 zero_lt_two_records).call c) s = false →
          ((∀ e ∈ t.accepted, e ∈ t.uploaded)
            ↔ ∀ e ∈ (unpartitioned 2 zero_lt_two_records).pending s, e ∉ s.accepted))
        {} [.write "a", .flush, .write "b", .flush]
      ∧ ∃ t, Machine.run (unpartitioned 2 zero_lt_two_records).step {}
          [.write "a", .flush, .write "b", .flush] = some t
        ∧ t.accepted = [("a", 0), ("b", 1)] ∧ t.uploaded = t.accepted := by
  refine ⟨allSteps_flush_uploaded_iff _ saves_strictLocalSink false [] _ ?_, _, rfl, rfl, rfl⟩
  exact allSteps_avoidsClosed refuses_strictLocalSink {} _

theorem zero_lt_ten : 0 < 10 := by decide

/-- **A flush that covers nothing**: a record is written and flushed, and in no object. -/
theorem not_uploaded_flush :
    ¬ Machine.AllSteps (unpartitioned 10 zero_lt_ten).step
      (fun s c t => c = .flush → raises ((unpartitioned 10 zero_lt_ten).call c) s = false →
        ∀ e ∈ t.accepted, e ∈ t.uploaded) {} [.write "a", .flush] := by
  intro h
  obtain ⟨_, hflush⟩ := h _ rfl
  have huploaded := (hflush _ rfl).1 rfl rfl ("a", 0) List.mem_cons_self
  cases huploaded

/-! ## Writes that raise -/

/-- No upload fails that a write begins because its own record has filled the file. -/
def FillsSafely (cfg : S3Sink ρ) (record : ρ) (s : S3SinkState ρ) : Prop :=
  ∀ entry t, cfg.store record s = .ok entry t → cfg.Full t → raises cfg.finalizeActiveFile t = false

/-- **The stored records are the accepted ones**, in the same order. -/
structure Exact (cfg : S3Sink ρ) (s : S3SinkState ρ) : Prop where
  tidy : cfg.Tidy s
  stored : cfg.stored s = s.accepted

/-- Where nothing changes that is stored, every record is still stored once. -/
theorem exact_of_still {s t : S3SinkState ρ} (h : cfg.Still s t) (hs : cfg.Exact s) :
    cfg.Exact t := by
  obtain ⟨ht, hstored, haccepted⟩ := h hs.tidy
  exact ⟨ht, by rw [hstored, haccepted, hs.stored]⟩

/-- After the record is taken the file is uploaded, or it has room. -/
theorem raises_rollOver {record : ρ} {s t : S3SinkState ρ} {entry : ρ × ℕ}
    (hfills : cfg.FillsSafely record s) (hm : cfg.store record s = .ok entry t) :
    raises cfg.rollOver t = false := by
  have hcases : cfg.rollOver t
      = (if cfg.Full t then cfg.finalizeActiveFile else pure ⟨⟩ : S3SinkM ρ PUnit) t := rfl
  unfold raises
  rw [hcases]
  by_cases hfull : cfg.Full t
  · rw [if_pos hfull]
    exact hfills entry t hm hfull
  · rw [if_neg hfull]
    rfl

/-- A write that raises has stored nothing, if its file keeps nothing of it and it is not its own
record's upload that fails. -/
theorem ensures_write_exact (hsaves : cfg.localSink.Saves) {record : ρ} {s : S3SinkState ρ}
    (havoids : cfg.AvoidsClosed record s)
    (hnothing : ∀ e t, cfg.store record s = .error e t → cfg.Still s t)
    (hfills : cfg.FillsSafely record s) (hs : cfg.Exact s) :
    Ensures (cfg.write record) s (fun _ t => cfg.Exact t) := by
  have hstore := ensures_store hsaves havoids
  unfold write
  rw [ensures_bind]
  cases hm : cfg.store record s with
  | error e t =>
    rw [ensures_iff_of_error hm]
    exact exact_of_still (hnothing e t hm) hs
  | ok entry t =>
    rw [ensures_iff_of_ok hm] at hstore ⊢
    dsimp only
    rw [ensures_bind]
    refine (respects_rollOver hsaves t).of_not_raises (raises_rollOver hfills hm)
      (fun _ u hu => ?_)
    dsimp only
    rw [ensures_modify]
    obtain ⟨htidy, hstored, haccepted⟩ := Takes.of_still hstore hu hs.tidy
    refine ⟨htidy.accept entry, ?_⟩
    show cfg.stored u = u.accepted ++ [entry]
    rw [hstored, haccepted, hs.stored]

/-- A local sink that drops what it raises for keeps nothing of a write that raises. -/
theorem still_of_store_eq_error (hsaves : cfg.localSink.Saves) (hdrops : cfg.localSink.Drops)
    {record : ρ} {s t : S3SinkState ρ} {e : Exc} (havoids : cfg.AvoidsClosed record s)
    (h : cfg.store record s = .error e t) : cfg.Still s t :=
  ((ensures_store hsaves havoids).of_error h).resolve_right (fun hkeeps => hkeeps.1 hdrops)

/-- **One call keeps this**, if its writes fill their files safely. -/
theorem exact_step (hsaves : cfg.localSink.Saves) (hdrops : cfg.localSink.Drops)
    (hrefuses : cfg.localSink.refusal ≠ none) {s t : S3SinkState ρ} {c : Call ρ} (hs : cfg.Exact s)
    (hfills : cfg.EachWrite cfg.FillsSafely s c) (h : cfg.step s c = some t) : cfg.Exact t := by
  have hwrite : ∀ record s, cfg.FillsSafely record s → cfg.Exact s →
      Ensures (cfg.write record) s (fun _ t => cfg.Exact t) := by
    intro record s hfills hs
    have havoids := avoidsClosed_of_refuses hrefuses record s
    exact ensures_write_exact hsaves havoids
      (fun _ _ => still_of_store_eq_error hsaves hdrops havoids) hfills hs
  cases h
  cases c with
  | write record => exact (hwrite record s hfills hs).finalState
  | writeBatch records => exact (ensures_writeBatch hwrite hfills hs).finalState
  | flush => exact exact_of_still (respects_flushActiveFile hsaves s).finalState hs
  | close =>
    exact exact_of_still ((ensures_close_still hsaves s).mono (fun _ _ h => h.1)).finalState hs

theorem exact_init (cfg : S3Sink ρ) (connected : Bool) (script : List Reply) :
    cfg.Exact { connected, script } :=
  ⟨(booked_init cfg connected script).tidy, rfl⟩

/-- **Writes that raise store nothing.** In a run in which no write fails at the upload that
its own record has made due, the records of the objects are at all times the first ones of
those that were accepted, in order and each of them once; and when the sink has been closed
they are all of them. -/
theorem allStates_uploaded_prefix (cfg : S3Sink ρ) (hsaves : cfg.localSink.Saves)
    (hdrops : cfg.localSink.Drops) (hrefuses : cfg.localSink.refusal ≠ none) (connected : Bool)
    (script : List Reply) (calls : List (Call ρ))
    (h : Machine.AllSteps cfg.step (fun s c _ => cfg.EachWrite cfg.FillsSafely s c)
      { connected, script } calls) :
    Machine.AllStates cfg.step (fun s => s.uploaded <+: s.accepted ∧ s.accepted.Nodup)
        { connected, script } calls
      ∧ Machine.AllSteps cfg.step
        (fun s c t => c = .close → raises (cfg.call c) s = false → t.uploaded = t.accepted)
        { connected, script } calls := by
  have hstep : ∀ s c t, cfg.Exact s → cfg.EachWrite cfg.FillsSafely s c →
      cfg.step s c = some t → cfg.Exact t :=
    fun s c t hs hg ht => exact_step hsaves hdrops hrefuses hs hg ht
  constructor
  · refine (Machine.allStates_of_step hstep (exact_init cfg connected script) h).mono
      (fun s hs => ⟨?_, ?_⟩)
    · rw [← hs.stored]
      exact List.prefix_append _ _
    · rw [← hs.stored]
      exact hs.tidy.nodup
  · have hclosed : ∀ s c t, cfg.Exact s → cfg.EachWrite cfg.FillsSafely s c →
        cfg.step s c = some t → cfg.Exact t
          ∧ (c = .close → raises (cfg.call c) s = false → t.uploaded = t.accepted) := by
      intro s c t hs hg ht
      have ht' := hstep s c t hs hg ht
      refine ⟨ht', ?_⟩
      rintro rfl hreturns
      cases ht
      obtain ⟨_, hclose⟩ := (ensures_close_still hsaves s).finalState_of_raises hreturns
      exact (stored_of_forgotten (hclose.2 rfl)).symm.trans ht'.stored
    exact Machine.allSteps_of_step hclosed (exact_init cfg connected script) h

/-- A sink with a file for each record's partition. -/
def partitioned : S3Sink String where
  runId := "run-1"
  format := .jsonl
  partitionPathFn record := .ok (some record)
  localSink := strictLocalSink String
  maxRecordsPerFile := 10
  maxRecordsPerFile_pos := zero_lt_ten

/-- The upload of the first partition fails, and the write that has begun it is repeated. -/
theorem allStates_uploaded_prefix_partitioned :
    Machine.AllStates partitioned.step (fun s => s.uploaded <+: s.accepted ∧ s.accepted.Nodup)
        { connected := true,
          script := [.ok, .ok, .ok, .ok, .ok, .raises (.exception "ClientError" "SlowDown")] }
        [.write "a", .write "b", .write "b", .close]
      ∧ Machine.AllSteps partitioned.step
        (fun s c t => c = .close → raises (partitioned.call c) s = false →
          t.uploaded = t.accepted)
        { connected := true,
          script := [.ok, .ok, .ok, .ok, .ok, .raises (.exception "ClientError" "SlowDown")] }
        [.write "a", .write "b", .write "b", .close] := by
  refine allStates_uploaded_prefix partitioned saves_strictLocalSink drops_strictLocalSink
    refuses_strictLocalSink true _ _ (fun t ht => ⟨?_, ?_⟩)
  · intro entry u hu hfull
    cases hu
    revert hfull
    decide
  · cases ht
    refine fun t ht => ⟨?_, ?_⟩
    · -- the write raises before it has stored anything
      intro entry u hu
      cases hu
    · cases ht
      refine fun t ht => ⟨?_, ?_⟩
      · intro entry u hu hfull
        cases hu
        revert hfull
        decide
      · cases ht
        exact fun t ht => ⟨trivial, trivial⟩

theorem zero_lt_one_record : 0 < 1 := by decide

/-- **A failed write is uploaded**, with one record a file: the upload fails that is due at
once, so the write raises, and closing the sink uploads its record. -/
theorem not_uploaded_prefix_close :
    ¬ Machine.AllStates (unpartitioned 1 zero_lt_one_record).step
      (fun s => s.uploaded <+: s.accepted)
      { connected := true,
        script := [.ok, .ok, .ok, .ok, .ok, .raises (.exception "ClientError" "SlowDown")] }
      [.write "a", .close] := by
  intro h
  have hprefix := h.last (t := _) rfl
  revert hprefix
  decide

end S3Sink

import AgoraPlugins.S3.Sink
import Mathlib.Data.List.TakeWhile

/-!
# The objects of the S3 sink

As long as only the local file fails a write, the objects of a sink are in order: their keys differ,
as each has the number of its file in it, none has more records than it may, and one after the other
they have what was accepted. What may go wrong is the partition. A file is opened for the partition
of the record that is to be written first, and if this write fails the file stays, with nothing in
it. The next write takes it as it is, since a file that has no record is not uploaded to make way
for another. So its record is uploaded under the key of the one that failed, unless they are of the
same partition. And what the local file keeps of a write that raises is uploaded with the rest, so
that the objects have a record that was not accepted (`laidOut_iff_allSteps`).
-/

open Effect

namespace S3Sink

variable {ρ : Type}

/-! ## Keys -/

section Keys

/-- What stands before the first of a character. -/
theorem takeWhile_append_cons {α : Type} [DecidableEq α] {a : α} {ds : List α} (hds : a ∉ ds)
    (rest : List α) : (ds ++ a :: rest).takeWhile (fun b => b ≠ a) = ds := by
  have hne : ∀ b ∈ ds, decide (b ≠ a) = true := by
    intro b hb
    refine decide_eq_true (fun heq => hds ?_)
    rwa [← heq]
  rw [List.takeWhile_append_of_pos hne, List.takeWhile_cons_of_neg (by simp), List.append_nil]

/-- What follows the last of a character. -/
theorem eq_of_append_cons_eq {α : Type} [DecidableEq α] {a : α} {xs ys ds es : List α}
    (hds : a ∉ ds) (hes : a ∉ es) (h : xs ++ a :: ds = ys ++ a :: es) : ds = es := by
  have hreverse : ds.reverse ++ a :: xs.reverse = es.reverse ++ a :: ys.reverse := by
    simpa using congrArg List.reverse h
  have hbefore := congrArg (List.takeWhile (fun b => b ≠ a)) hreverse
  rw [takeWhile_append_cons (fun hmem => hds (List.mem_reverse.1 hmem)),
    takeWhile_append_cons (fun hmem => hes (List.mem_reverse.1 hmem))] at hbefore
  exact List.reverse_injective hbefore

/-- A character so many times at the end of a text. -/
theorem toList_pushn (s : String) (c : Char) (n : ℕ) :
    (s.pushn c n).toList = s.toList ++ List.replicate n c := by
  rw [String.pushn_eq_repeat_push]
  induction n with
  | zero => simp [Nat.repeat]
  | succ n ih =>
    rw [Nat.repeat, String.toList_push, ih, List.replicate_succ', List.append_assoc]

/-- The digits of the number with zeros before them. -/
theorem toList_fiveDigits (n : ℕ) : (fiveDigits n).toList
    = List.replicate (5 - (toString n).length) '0' ++ Nat.toDigits 10 n := by
  unfold fiveDigits
  rw [String.toList_append, toList_pushn]
  simp

/-- **Numbers that are written with five digits or more** are told apart. -/
theorem fiveDigits_injective : Function.Injective fiveDigits := by
  have hread : ∀ n, Nat.ofDigitChars 10 (fiveDigits n).toList 0 = n := by
    intro n
    rw [toList_fiveDigits, Nat.ofDigitChars_append, Nat.ofDigitChars_replicate_zero, Nat.mul_zero,
      Nat.ofDigitChars_ten_toDigits]
  intro m n h
  rw [← hread m, h, hread n]

theorem isDigit_of_mem_fiveDigits {n : ℕ} {c : Char} (hc : c ∈ (fiveDigits n).toList) :
    c.isDigit = true := by
  rw [toList_fiveDigits, List.mem_append] at hc
  rcases hc with hzero | hdigit
  · rw [List.eq_of_mem_replicate hzero]
    decide
  · exact Nat.isDigit_of_mem_toDigits (by decide) (by decide) hdigit

variable (cfg : S3Sink ρ)

/-- The part of a key that all objects of the sink have. -/
def root : List Char :=
  (if stripSlashes cfg.keyPrefix = "" then "run_id=" ++ cfg.runId
    else stripSlashes cfg.keyPrefix ++ "/" ++ ("run_id=" ++ cfg.runId)).toList

/-- The part of a key that is the partition. -/
def directory (partition : Option String) : List Char :=
  if partition.getD "" = "" then [] else '/' :: (partition.getD "").toList

/-- **The parts of a key.** -/
theorem toList_buildObjectKey (partition : Option String) (i : ℕ) :
    (cfg.buildObjectKey partition i).toList
      = cfg.root ++ directory partition ++ '/' :: (cfg.filePrefix.toList ++ '-' ::
        ((fiveDigits i).toList ++ '.' :: cfg.format.extension.toList)) := by
  have hrun : "run_id=" ++ cfg.runId ≠ "" := by simp
  unfold buildObjectKey root directory
  by_cases hstart : stripSlashes cfg.keyPrefix = "" <;>
    by_cases hpartition : partition.getD "" = "" <;>
    simp [hstart, hpartition, hrun]

/-- **The keys of different files differ**, whatever their partitions. -/
theorem fileIndex_of_buildObjectKey {p q : Option String} {i j : ℕ}
    (h : cfg.buildObjectKey p i = cfg.buildObjectKey q j) : i = j := by
  have hchars := congrArg String.toList h
  rw [toList_buildObjectKey, toList_buildObjectKey] at hchars
  have hdash : ∀ n, '-' ∉ (fiveDigits n).toList := by
    intro n hmem
    have hdigit := isDigit_of_mem_fiveDigits hmem
    revert hdigit
    decide
  have hcut : (cfg.root ++ directory p ++ '/' :: cfg.filePrefix.toList) ++ '-' ::
        (fiveDigits i).toList
      = (cfg.root ++ directory q ++ '/' :: cfg.filePrefix.toList) ++ '-' ::
        (fiveDigits j).toList := by
    have htail : ((cfg.root ++ directory p ++ '/' :: cfg.filePrefix.toList) ++ '-' ::
          (fiveDigits i).toList) ++ '.' :: cfg.format.extension.toList
        = ((cfg.root ++ directory q ++ '/' :: cfg.filePrefix.toList) ++ '-' ::
          (fiveDigits j).toList) ++ '.' :: cfg.format.extension.toList := by
      simpa using hchars
    exact List.append_cancel_right htail
  exact fiveDigits_injective (String.toList_injective
    (eq_of_append_cons_eq (hdash i) (hdash j) hcut))

/-- **The keys of different partitions differ**, if no partition is empty. -/
theorem partition_of_buildObjectKey {p q : Option String} {i : ℕ} (hp : p ≠ some "")
    (hq : q ≠ some "") (h : cfg.buildObjectKey p i = cfg.buildObjectKey q i) : p = q := by
  have hchars := congrArg String.toList h
  rw [toList_buildObjectKey, toList_buildObjectKey, List.append_assoc, List.append_assoc,
    List.append_cancel_left_eq, List.append_cancel_right_eq] at hchars
  have hget : ∀ r : Option String, r ≠ some "" →
      directory r = r.elim [] (fun s => '/' :: s.toList) := by
    rintro (_ | s) hr
    · rfl
    · exact if_neg (fun heq => hr (congrArg some heq))
  rw [hget p hp, hget q hq] at hchars
  cases p with
  | none =>
    cases q with
    | none => rfl
    | some t => cases hchars
  | some s =>
    cases q with
    | none => cases hchars
    | some t => exact congrArg some (String.toList_injective (List.cons.inj hchars).2)

end Keys

end S3Sink

/-! ## The law -/

/-- What is to be known of an open file. -/
structure FileView (ρ : Type) where
  partition : Option String
  key : String
  recordCount : ℕ
  closed : Bool
  records : List (ρ × ℕ)

namespace S3Sink

variable {ρ : Type} (cfg : S3Sink ρ)

def look (file : ActiveFile ρ) : FileView ρ :=
  { file with closed := file.closed, records := cfg.localSink.contents file.calls }

/-- The file that is open. -/
def view (s : S3SinkState ρ) : Option (FileView ρ) := s.active.map cfg.look

/-- **The files of a sink** in their order: its objects, and the one that is open. -/
def files (s : S3SinkState ρ) : List (String × List (ρ × ℕ)) :=
  s.objects ++ (cfg.view s).toList.map (fun file => (file.key, file.records))

/-- A record of the file of this number belongs under its key. -/
def InPlace (i : ℕ) (key : String) (entry : ρ × ℕ) : Prop :=
  ∃ path, cfg.partitionPathFn entry.1 = .ok path
    ∧ key = cfg.buildObjectKey (normalizePartition path) i

/-- **The objects are laid out by partition**: no two have the same key, the records of each belong
under its key, none has too many of them, and all together they are those that were accepted, in
this order. -/
structure LaidOut (s : S3SinkState ρ) : Prop where
  keys : (s.objects.map Prod.fst).Nodup
  partitions : ∀ i o, s.objects[i]? = some o → ∀ entry ∈ o.2, cfg.InPlace i o.1 entry
  sizes : ∀ o ∈ s.objects, o.2.length ≤ cfg.maxRecordsPerFile
  records : s.uploaded = s.accepted

/-- **Nothing raises but the local file**, and what tells the partition. -/
def OnlyLocalFailures (record : ρ) (s : S3SinkState ρ) : Prop :=
  (∀ path, cfg.partitionPathFn record = .ok path → raises (cfg.prepare record) s = false)
    ∧ cfg.FillsSafely record s

/-- The same, for a call. -/
def CallOnlyLocalFailures (s : S3SinkState ρ) (c : Call ρ) : Prop :=
  cfg.EachWrite cfg.OnlyLocalFailures s c ∧ (c = .close → raises cfg.close s = false)

/-- The local file takes the record. -/
def TakesLocally (s : S3SinkState ρ) (record : ρ) : Prop :=
  ∃ t, cfg.prepare record s = .ok ⟨⟩ t ∧ raises (cfg.writeLocal record) t = false

/-- A file that has been left empty suits the partition. -/
def Suits (s : S3SinkState ρ) (partition : Option String) : Prop :=
  ∀ file, s.active = some file → file.recordCount = 0 → file.partition = partition

/-- **An empty file is left to its partition**: what the local file takes into one that a failed
write has left empty is of its partition. -/
def LeavesEmpty (record : ρ) (s : S3SinkState ρ) : Prop :=
  cfg.TakesLocally s record → ∀ path, cfg.partitionPathFn record = .ok path →
    Suits s (normalizePartition path)

/-- The file that is open keeps nothing of a write that raises. -/
def KeepsNothing (record : ρ) (s : S3SinkState ρ) : Prop :=
  ∀ file, s.active = some file →
    cfg.localSink.contents (file.calls ++ [.write (record, s.writes) false])
      = cfg.localSink.contents file.calls

/-- **A record that the local file raises for is not in it.** -/
def LeavesNothing (record : ρ) (s : S3SinkState ρ) : Prop :=
  ∀ t, cfg.prepare record s = .ok ⟨⟩ t → raises (cfg.writeLocal record) t = true →
    cfg.KeepsNothing record t

/-- What a write must keep to. -/
structure Respectful (record : ρ) (s : S3SinkState ρ) : Prop where
  leavesEmpty : cfg.LeavesEmpty record s
  leavesNothing : cfg.LeavesNothing record s

/-! ## What a step does to the files -/

/-- **What is known of the files**: the objects are numbered and none has too many records, and the
file that is open counts those that it has. -/
structure Orderly (s : S3SinkState ρ) : Prop where
  count : s.objects.length = s.fileIndex
  keys : ∀ i o, s.objects[i]? = some o → ∃ partition, o.1 = cfg.buildObjectKey partition i
  sizes : ∀ o ∈ s.objects, o.2.length ≤ cfg.maxRecordsPerFile
  key : ∀ file, cfg.view s = some file → file.key = cfg.buildObjectKey file.partition s.fileIndex
  nonempty : ∀ file, cfg.view s = some file → file.partition ≠ some ""
  isOpen : ∀ file, cfg.view s = some file → file.closed = false
  counted : ∀ file, cfg.view s = some file → file.recordCount = file.records.length
  bounded : ∀ file, cfg.view s = some file → file.recordCount ≤ cfg.maxRecordsPerFile

/-- The open file takes another record. -/
def HasRoom (s : S3SinkState ρ) : Prop :=
  ∀ file, cfg.view s = some file → file.recordCount < cfg.maxRecordsPerFile

/-- The records of all files belong under their keys. -/
def Placed (s : S3SinkState ρ) : Prop :=
  ∀ i o, (cfg.files s)[i]? = some o → ∀ entry ∈ o.2, cfg.InPlace i o.1 entry

/-- The files are the same. -/
structure SameFiles (s t : S3SinkState ρ) : Prop where
  objects : t.objects = s.objects
  view : cfg.view t = cfg.view s
  fileIndex : t.fileIndex = s.fileIndex

variable {cfg : S3Sink ρ} {s t u : S3SinkState ρ}

theorem SameFiles.files (h : cfg.SameFiles s t) : cfg.files t = cfg.files s := by
  unfold S3Sink.files
  rw [h.objects, h.view]

theorem SameFiles.orderly (h : cfg.SameFiles s t) (hs : cfg.Orderly s) : cfg.Orderly t where
  count := by rw [h.objects, h.fileIndex, hs.count]
  keys := h.objects ▸ hs.keys
  sizes := h.objects ▸ hs.sizes
  key := by
    rw [h.view, h.fileIndex]
    exact hs.key
  nonempty := h.view ▸ hs.nonempty
  isOpen := h.view ▸ hs.isOpen
  counted := h.view ▸ hs.counted
  bounded := h.view ▸ hs.bounded

theorem SameFiles.hasRoom (h : cfg.SameFiles s t) (hs : cfg.HasRoom s) : cfg.HasRoom t := by
  unfold HasRoom
  rw [h.view]
  exact hs

/-- Whether every record is in its place depends on the files only. -/
theorem placed_congr (h : cfg.files t = cfg.files s) : cfg.Placed t ↔ cfg.Placed s := by
  unfold Placed
  rw [h]

theorem view_of_active {file : ActiveFile ρ} (h : s.active = some file) :
    cfg.view s = some (cfg.look file) := by
  rw [view, h]
  rfl

/-- Without one there is nothing to see. -/
theorem view_of_none (h : s.active = none) : cfg.view s = none := by
  rw [view, h]
  rfl

/-- **A file suits a partition** if it has records, or is that of the partition. -/
theorem suits_iff (cfg : S3Sink ρ) {partition : Option String} : Suits s partition
    ↔ ∀ file, cfg.view s = some file → file.recordCount = 0 → file.partition = partition := by
  unfold Suits view
  cases s.active <;> simp [look]

/-- The file that is open is the last one. -/
theorem files_of_view {file : FileView ρ} (h : cfg.view s = some file) :
    cfg.files s = s.objects ++ [(file.key, file.records)] := by
  unfold files
  rw [h]
  rfl

/-- Without an active file the objects are all there is. -/
theorem files_of_none (h : cfg.view s = none) : cfg.files s = s.objects := by
  unfold files
  rw [h]
  exact List.append_nil _

theorem getElem?_concat_eq_some_iff {α : Type} {xs : List α} {a b : α} {i : ℕ} :
    (xs ++ [a])[i]? = some b ↔ xs[i]? = some b ∨ i = xs.length ∧ b = a := by
  rw [List.getElem?_append]
  split
  next hlt => simp [hlt.ne]
  next hle =>
    have hnone : xs[i]? = none := List.getElem?_eq_none (not_lt.1 hle)
    rw [hnone, List.getElem?_singleton]
    split
    next hi =>
      have hieq : i = xs.length := by omega
      simp [hieq, eq_comm]
    next hi =>
      have hine : i ≠ xs.length := by omega
      simp [hine]

/-- **With a file open** its records belong there, and those of the objects there. -/
theorem placed_iff_of_view {file : FileView ρ} (h : cfg.view s = some file) :
    cfg.Placed s ↔ (∀ i o, s.objects[i]? = some o → ∀ entry ∈ o.2, cfg.InPlace i o.1 entry)
      ∧ ∀ entry ∈ file.records, cfg.InPlace s.objects.length file.key entry := by
  unfold Placed
  rw [files_of_view h]
  simp only [getElem?_concat_eq_some_iff]
  constructor
  · intro hplaced
    exact ⟨fun i o ho => hplaced i o (.inl ho), hplaced _ _ (.inr ⟨rfl, rfl⟩)⟩
  · rintro ⟨hobjects, hfile⟩ i o (ho | ⟨rfl, rfl⟩)
    · exact hobjects i o ho
    · exact hfile

/-! ### An upload -/

/-- The file that is open becomes an object. -/
structure Uploads (file : FileView ρ) (s t : S3SinkState ρ) : Prop where
  active : t.active = none
  objects : t.objects = s.objects ++ [(file.key, file.records)]
  fileIndex : t.fileIndex = s.fileIndex + 1

/-- **A file that is finalized** is uploaded as it was. -/
theorem ensures_finalizeActiveFile_uploads {file : ActiveFile ρ} (hactive : s.active = some file) :
    Ensures cfg.finalizeActiveFile s (fun r t => r = .ok ⟨⟩ → Uploads (cfg.look file) s t) :=
  ensures_finalizeActiveFile hactive (fun _ _ _ => by rintro ⟨⟩)
    (fun _ => ⟨fun _ _ => by rintro ⟨⟩, fun _ _ => ⟨rfl, rfl, rfl⟩⟩)

theorem Uploads.files {file : FileView ρ} (h : Uploads file s t)
    (hview : cfg.view s = some file) : cfg.files t = cfg.files s := by
  rw [files_of_none (view_of_none h.active), files_of_view hview, h.objects]

theorem Uploads.orderly {file : FileView ρ} (h : Uploads file s t)
    (hview : cfg.view s = some file) (hs : cfg.Orderly s) : cfg.Orderly t := by
  have hnone : ∀ file, cfg.view t ≠ some file := by
    intro file hfile
    rw [view_of_none h.active] at hfile
    cases hfile
  refine ⟨?_, ?_, ?_, fun file hfile => absurd hfile (hnone file),
    fun file hfile => absurd hfile (hnone file), fun file hfile => absurd hfile (hnone file),
    fun file hfile => absurd hfile (hnone file), fun file hfile => absurd hfile (hnone file)⟩
  · rw [h.objects, h.fileIndex, List.length_append, hs.count]
    rfl
  · rw [h.objects]
    simp only [getElem?_concat_eq_some_iff]
    rintro i o (ho | ⟨rfl, rfl⟩)
    · exact hs.keys i o ho
    · exact ⟨file.partition, by rw [hs.count]; exact hs.key file hview⟩
  · rw [h.objects]
    refine List.forall_mem_append.2 ⟨hs.sizes, fun o ho => ?_⟩
    rw [List.mem_singleton.1 ho]
    show file.records.length ≤ _
    rw [← hs.counted file hview]
    exact hs.bounded file hview

/-- Where there is no file there is room. -/
theorem hasRoom_of_none (h : s.active = none) : cfg.HasRoom s := by
  intro file hfile
  rw [view_of_none h] at hfile
  cases hfile

/-! ### Before the record is written -/

theorem ensures_await_same : Ensures await s (fun _ t => cfg.SameFiles s t) :=
  ensures_await (fun _ => ⟨rfl, rfl, rfl⟩) (fun _ _ => ⟨rfl, rfl, rfl⟩)

theorem ensures_connect_same : Ensures connect s (fun _ t => cfg.SameFiles s t) := by
  unfold connect
  rw [ensures_bind, ensures_get]
  dsimp only
  split
  · exact ⟨rfl, rfl, rfl⟩
  · exact ensures_await_same.bind (fun _ _ h => ⟨h.objects, h.view, h.fileIndex⟩)
      (fun _ _ h => h)

/-- **The file is one of the partition**, if one is open, unless it was left empty by another. -/
structure Leaves (cfg : S3Sink ρ) (partition : Option String) (s t : S3SinkState ρ) : Prop where
  orderly : cfg.Orderly t
  hasRoom : cfg.HasRoom t
  files : cfg.files t = cfg.files s
  suits : ∀ file, cfg.view t = some file → (file.partition = partition ↔ Suits s partition)
  suitsNone : t.active = none → Suits s partition

/-- **The partition before** has been left when the call returns. -/
theorem ensures_leavePartition_leaves (partition : Option String) (hs : cfg.Orderly s)
    (hroom : cfg.HasRoom s) :
    Ensures (cfg.leavePartition partition) s
      (fun r t => r = .ok ⟨⟩ → Leaves cfg partition s t) := by
  unfold leavePartition
  rw [ensures_bind, ensures_get]
  dsimp only
  cases hactive : s.active with
  | none =>
    refine fun _ => ⟨hs, hroom, rfl, fun file hfile => ?_, fun _ file hfile => ?_⟩
    · rw [view_of_none hactive] at hfile
      cases hfile
    · rw [hactive] at hfile
      cases hfile
  | some file =>
    have hview : cfg.view s = some (cfg.look file) := view_of_active hactive
    dsimp only
    split
    next hleave =>
      refine (ensures_finalizeActiveFile_uploads hactive).mono (fun r t ht hr => ?_)
      have huploads := ht hr
      refine ⟨huploads.orderly hview hs, hasRoom_of_none huploads.active,
        huploads.files hview, fun file' hfile' => ?_, fun _ file' hfile' hzero => ?_⟩
      · rw [view_of_none huploads.active] at hfile'
        cases hfile'
      · rw [hactive] at hfile'
        cases hfile'
        exact absurd hzero hleave.2.ne'
    next hstay =>
      refine fun _ => ⟨hs, hroom, rfl, fun file' hfile' => ?_, fun hnone => ?_⟩
      · rw [hview] at hfile'
        cases hfile'
        constructor
        · intro heq file' hfile' _
          rw [hactive] at hfile'
          cases hfile'
          exact heq
        · intro hsuits
          by_contra hne
          refine hne (hsuits file hactive ?_)
          exact Nat.eq_zero_of_not_pos (fun hpos => hstay ⟨hne, hpos⟩)
      · rw [hactive] at hnone
        cases hnone

/-- **A file is open** for the record, of its partition or left empty by another. -/
structure Ready (cfg : S3Sink ρ) (partition : Option String) (s t : S3SinkState ρ) : Prop where
  orderly : cfg.Orderly t
  hasRoom : cfg.HasRoom t
  placed : cfg.Placed t ↔ cfg.Placed s
  file : ∃ file, cfg.view t = some file ∧ (file.partition = partition ↔ Suits s partition)

/-- A new file has nothing that does not belong there. -/
theorem Leaves.ready_of_open (hsaves : cfg.localSink.Saves) {partition : Option String}
    (h : Leaves cfg partition s t) (hnone : t.active = none) (hne : partition ≠ some "")
    (script : List Reply) :
    Ready cfg partition s { t with
      active := some { partition, key := cfg.buildObjectKey partition t.fileIndex }, script } where
  orderly := by
    refine ⟨h.orderly.count, h.orderly.keys, h.orderly.sizes, ?_, ?_, ?_, ?_, ?_⟩
    · rintro file ⟨⟩
      rfl
    · rintro file ⟨⟩
      exact hne
    · rintro file ⟨⟩
      rfl
    · rintro file ⟨⟩
      show 0 = (cfg.localSink.contents []).length
      rw [hsaves.empty]
      rfl
    · rintro file ⟨⟩
      exact Nat.zero_le _
  hasRoom := by
    rintro file ⟨⟩
    exact cfg.maxRecordsPerFile_pos
  placed := by
    rw [placed_iff_of_view rfl, ← placed_congr h.files]
    unfold Placed
    rw [files_of_none (view_of_none hnone)]
    refine and_iff_left (fun entry hentry => ?_)
    have hmem : entry ∈ cfg.localSink.contents [] := hentry
    rw [hsaves.empty] at hmem
    cases hmem
  file := ⟨_, rfl, iff_of_true rfl (h.suitsNone hnone)⟩

/-- **And its own** has a file then, which is open and has room. -/
theorem ensures_enterPartition_ready (hsaves : cfg.localSink.Saves) {partition : Option String}
    (h : Leaves cfg partition s t) (hne : partition ≠ some "") :
    Ensures (cfg.enterPartition partition) t
      (fun r u => r = .ok ⟨⟩ → Ready cfg partition s u) := by
  unfold enterPartition
  rw [ensures_bind, ensures_get]
  dsimp only
  cases hactive : t.active with
  | some file =>
    have hview : cfg.view t = some (cfg.look file) := view_of_active hactive
    exact fun _ => ⟨h.orderly, h.hasRoom, placed_congr h.files, _, hview, h.suits _ hview⟩
  | none =>
    dsimp only
    unfold openActiveFile
    rw [ensures_bind]
    refine ensures_await (fun _ => ?_) (fun _ _ => by rintro ⟨⟩)
    dsimp only
    rw [ensures_bind]
    refine ensures_await (fun script => ?_) (fun _ _ => by rintro ⟨⟩)
    rw [ensures_modify]
    exact fun _ => h.ready_of_open hsaves hactive hne script

/-- A partition has a name, if there is one. -/
theorem normalizePartition_ne (path : Option String) : normalizePartition path ≠ some "" := by
  cases path with
  | none => simp [normalizePartition]
  | some value =>
    unfold normalizePartition
    split
    · simp
    · simp [*]

/-- **A write is ready**, or the partition is not told and nothing has changed. -/
theorem ensures_prepare (hsaves : cfg.localSink.Saves) (record : ρ) (hs : cfg.Orderly s)
    (hroom : cfg.HasRoom s) :
    Ensures (cfg.prepare record) s (fun r t => match cfg.partitionPathFn record with
      | .ok path => r = .ok ⟨⟩ → Ready cfg (normalizePartition path) s t
      | .error _ => (∃ e, r = .error e) ∧ cfg.SameFiles s t) := by
  unfold prepare
  cases hpath : cfg.partitionPathFn record with
  | error e =>
    refine ensures_connect_same.bind (fun _ t ht => ?_) (fun e t ht => ⟨⟨e, rfl⟩, ht⟩)
    exact ⟨⟨e, rfl⟩, ht⟩
  | ok path =>
    have hconnect : Ensures connect s (fun _ t => cfg.SameFiles s t) := ensures_connect_same
    refine hconnect.bind (fun _ t ht => ?_) (fun _ _ _ => by rintro ⟨⟩)
    show Ensures (cfg.leavePartition (normalizePartition path) >>= fun _ =>
      cfg.enterPartition (normalizePartition path)) t _
    refine (ensures_leavePartition_leaves (normalizePartition path) (ht.orderly hs)
      (ht.hasRoom hroom)).bind (fun _ u hu => ?_) (fun _ _ _ => by rintro ⟨⟩)
    refine (ensures_enterPartition_ready hsaves (hu rfl) (normalizePartition_ne path)).mono ?_
    intro r v hv hr
    have hready := hv hr
    obtain ⟨file, hfile, hsuits⟩ := hready.file
    refine ⟨hready.orderly, hready.hasRoom, hready.placed.trans (placed_congr ht.files), file,
      hfile, hsuits.trans ?_⟩
    rw [suits_iff cfg, suits_iff cfg, ht.view]

/-! ### The record is written -/

/-- **The file takes a record** and counts it. -/
structure Grows (cfg : S3Sink ρ) (file : FileView ρ) (entry : ρ × ℕ) (s t : S3SinkState ρ) :
    Prop where
  view : cfg.view t = some { file with
    records := file.records ++ [entry], recordCount := file.recordCount + 1 }
  objects : t.objects = s.objects
  fileIndex : t.fileIndex = s.fileIndex

/-- What a call of its sink that does not close it leaves of a file. -/
theorem look_called {file : ActiveFile ρ} {call : LocalCall ρ} (hcall : call.isClose = false) :
    cfg.look (file.called call)
      = { cfg.look file with records := cfg.localSink.contents (file.calls ++ [call]) } := by
  simp [look, ActiveFile.called, ActiveFile.closed, hcall]

/-- A call that does not close the file shows in its records only. -/
theorem view_called {file : ActiveFile ρ} {call : LocalCall ρ} (hactive : s.active = some file)
    (hcall : call.isClose = false) : cfg.view (called call s)
      = some { cfg.look file with records := cfg.localSink.contents (file.calls ++ [call]) } := by
  rw [view, called, hactive, ← look_called hcall]
  rfl

/-- A record that is counted shows in the number of them. -/
theorem view_countRecord : cfg.view (countRecord s)
    = (cfg.view s).map (fun file => { file with recordCount := file.recordCount + 1 }) := by
  unfold view countRecord
  cases s.active <;> rfl

/-- **A local write** that returns adds the record to the file; one that raises may have. -/
theorem ensures_writeLocal_grows (hsaves : cfg.localSink.Saves) {file : FileView ρ} (record : ρ)
    (hview : cfg.view s = some file) (hopen : file.closed = false) :
    Ensures (cfg.writeLocal record) s (fun r t => match r with
      | .ok entry => entry.1 = record ∧ Grows cfg file entry s (countRecord t)
      | .error _ => cfg.KeepsNothing record s → cfg.SameFiles s t) := by
  obtain ⟨active, hactive, rfl⟩ := Option.map_eq_some_iff.1 hview
  refine ensures_writeLocal (fun hnone => ?_) (fun file' hactive' _ script => ?_)
    (fun e script hnothing => ?_)
  · rw [hactive] at hnone
    cases hnone
  · rw [hactive] at hactive'
    cases hactive'
    refine ⟨rfl, ?_, rfl, rfl⟩
    have hcalled : cfg.view (called (.write (record, s.writes) true) { number s with script })
        = some { cfg.look active with
          records := cfg.localSink.contents (active.calls ++ [.write (record, s.writes) true]) } :=
      view_called hactive rfl
    rw [hsaves.wrote _ _ hopen] at hcalled
    rw [view_countRecord, hcalled]
    rfl
  · refine ⟨rfl, ?_, rfl⟩
    rw [view_called (s := { number s with script }) hactive rfl, hnothing active hactive, hview]
    rfl

/-- A record more leaves the files in order. -/
theorem Grows.orderly {file : FileView ρ} {entry : ρ × ℕ} (h : Grows cfg file entry s t)
    (hview : cfg.view s = some file) (hs : cfg.Orderly s) (hroom : cfg.HasRoom s) :
    cfg.Orderly t where
  count := by rw [h.objects, h.fileIndex, hs.count]
  keys := h.objects ▸ hs.keys
  sizes := h.objects ▸ hs.sizes
  key := by
    rw [h.view, h.fileIndex]
    rintro file' ⟨⟩
    exact hs.key file hview
  nonempty := by
    rw [h.view]
    rintro file' ⟨⟩
    exact hs.nonempty file hview
  isOpen := by
    rw [h.view]
    rintro file' ⟨⟩
    exact hs.isOpen file hview
  counted := by
    rw [h.view]
    rintro file' ⟨⟩
    show file.recordCount + 1 = (file.records ++ [entry]).length
    rw [hs.counted file hview, List.length_append]
    rfl
  bounded := by
    rw [h.view]
    rintro file' ⟨⟩
    exact hroom file hview

/-- A record belongs in a file just if the file is of its partition. -/
theorem inPlace_iff {partition path : Option String} {i : ℕ} {entry : ρ × ℕ}
    (hpath : cfg.partitionPathFn entry.1 = .ok path) (hne : partition ≠ some "") :
    cfg.InPlace i (cfg.buildObjectKey partition i) entry
      ↔ partition = normalizePartition path := by
  constructor
  · rintro ⟨path', hpath', hkey⟩
    rw [hpath] at hpath'
    cases hpath'
    exact partition_of_buildObjectKey cfg hne (normalizePartition_ne path) hkey
  · rintro rfl
    exact ⟨path, hpath, rfl⟩

/-- **Every record is in its place** with it, if it is and they were. -/
theorem Grows.placed_iff {file : FileView ρ} {entry : ρ × ℕ} {path : Option String}
    (h : Grows cfg file entry s t) (hview : cfg.view s = some file) (hs : cfg.Orderly s)
    (hpath : cfg.partitionPathFn entry.1 = .ok path) :
    cfg.Placed t ↔ cfg.Placed s ∧ file.partition = normalizePartition path := by
  rw [placed_iff_of_view h.view, placed_iff_of_view hview, h.objects,
    ← inPlace_iff hpath (hs.nonempty file hview), ← hs.key file hview, ← hs.count, and_assoc]
  refine and_congr_right' ?_
  show (∀ e ∈ file.records ++ [entry], _) ↔ _
  rw [List.forall_mem_append, List.forall_mem_singleton]

/-- **A full file is uploaded**, and otherwise there is room. -/
theorem ensures_rollOver (hs : cfg.Orderly s) :
    Ensures cfg.rollOver s (fun r t => r = .ok ⟨⟩ → cfg.Orderly t ∧ cfg.HasRoom t
      ∧ (cfg.Placed t ↔ cfg.Placed s)) := by
  unfold rollOver
  rw [ensures_bind, ensures_get]
  dsimp only
  split
  next hfull =>
    obtain ⟨file, hactive, _⟩ := hfull
    have hview : cfg.view s = some (cfg.look file) := view_of_active hactive
    refine (ensures_finalizeActiveFile_uploads hactive).mono (fun r t ht hr => ?_)
    have huploads := ht hr
    exact ⟨huploads.orderly hview hs, hasRoom_of_none huploads.active,
      placed_congr (huploads.files hview)⟩
  next hnot =>
    refine fun _ => ⟨hs, fun file hview => ?_, Iff.rfl⟩
    obtain ⟨active, hactive, rfl⟩ := Option.map_eq_some_iff.1 hview
    exact Nat.lt_of_not_le (fun hle => hnot ⟨active, hactive, hle⟩)

/-- A step that leaves the files alone keeps what is known of them. -/
theorem SameFiles.kept (h : cfg.SameFiles s t) (hs : cfg.Orderly s) (hroom : cfg.HasRoom s)
    {p : Prop} (hp : p) :
    cfg.Orderly t ∧ cfg.HasRoom t ∧ (cfg.Placed t ↔ cfg.Placed s ∧ p) :=
  ⟨h.orderly hs, h.hasRoom hroom, (placed_congr h.files).trans (and_iff_left hp).symm⟩

/-- **A write whose record is taken** puts it in place just if the open file is of its partition. -/
theorem placed_write_of_takes (hsaves : cfg.localSink.Saves) {record : ρ} {path : Option String}
    {entry : ρ × ℕ} (hpath : cfg.partitionPathFn record = .ok path)
    (hready : Ready cfg (normalizePartition path) s t)
    (hlocal : cfg.OnlyLocalFailures record s) (hp : cfg.prepare record s = .ok ⟨⟩ t)
    (hw : cfg.writeLocal record t = .ok entry u) :
    cfg.Orderly (finalState (cfg.write record) s) ∧ cfg.HasRoom (finalState (cfg.write record) s)
      ∧ (cfg.Placed (finalState (cfg.write record) s)
        ↔ cfg.Placed s ∧ Suits s (normalizePartition path)) := by
  obtain ⟨file, hfile, hsuits⟩ := hready.file
  obtain ⟨rfl, hgrows⟩ := (ensures_writeLocal_grows hsaves record hfile
    (hready.orderly.isOpen file hfile)).of_ok hw
  have hstore : cfg.store entry.1 s = .ok entry (countRecord u) := by
    unfold store
    rw [bind_of_ok hp, bind_of_ok hw]
    rfl
  have horderly := hgrows.orderly hfile hready.orderly hready.hasRoom
  have hroll := ensures_rollOver horderly
  have hreturns := raises_rollOver hlocal.2 hstore
  cases hr : cfg.rollOver (countRecord u) with
  | error e v =>
    unfold raises at hreturns
    rw [hr] at hreturns
    cases hreturns
  | ok _ v =>
    obtain ⟨hv, hroom, hplaced⟩ := hroll.of_ok hr rfl
    have hwrite : finalState (cfg.write entry.1) s
        = { v with accepted := v.accepted ++ [entry] } := by
      unfold write
      rw [finalState_bind, hstore]
      dsimp only
      rw [finalState_bind, hr]
      rfl
    have hsame : cfg.SameFiles v { v with accepted := v.accepted ++ [entry] } := ⟨rfl, rfl, rfl⟩
    rw [hwrite]
    refine ⟨hsame.orderly hv, hsame.hasRoom hroom, ?_⟩
    rw [placed_congr hsame.files, hplaced, hgrows.placed_iff hfile hready.orderly hpath,
      hready.placed, hsuits]

/-- **A write keeps the files in order** if it leaves nothing when it raises, and puts its record in
place just if it leaves an empty file to its partition. -/
theorem placed_write_iff (hsaves : cfg.localSink.Saves) {record : ρ} (hs : cfg.Orderly s)
    (hroom : cfg.HasRoom s) (hlocal : cfg.OnlyLocalFailures record s)
    (hnothing : cfg.LeavesNothing record s) :
    cfg.Orderly (finalState (cfg.write record) s) ∧ cfg.HasRoom (finalState (cfg.write record) s)
      ∧ (cfg.Placed (finalState (cfg.write record) s)
        ↔ cfg.Placed s ∧ cfg.LeavesEmpty record s) := by
  have hprepare := ensures_prepare hsaves record hs hroom
  cases hpath : cfg.partitionPathFn record with
  | error e =>
    -- the partition is not told
    have hleaves : cfg.LeavesEmpty record s := by
      intro _ path hok
      rw [hpath] at hok
      cases hok
    simp only [hpath] at hprepare
    cases hp : cfg.prepare record s with
    | ok _ t =>
      obtain ⟨_, hnot⟩ := (hprepare.of_ok hp).1
      cases hnot
    | error e' t =>
      have hstore : cfg.store record s = .error e' t := bind_of_error hp _
      have hwrite : finalState (cfg.write record) s = t :=
        finalState_of_error (bind_of_error hstore _)
      rw [hwrite]
      exact (hprepare.of_error hp).2.kept hs hroom hleaves
  | ok path =>
    simp only [hpath] at hprepare
    have hreturns := hlocal.1 path hpath
    cases hp : cfg.prepare record s with
    | error e t =>
      unfold raises at hreturns
      rw [hp] at hreturns
      cases hreturns
    | ok _ t =>
      have hready := hprepare.of_ok hp rfl
      cases hw : cfg.writeLocal record t with
      | ok entry u =>
        have htakes : cfg.TakesLocally s record := ⟨t, hp, by unfold raises; rw [hw]⟩
        have hleaves : cfg.LeavesEmpty record s ↔ Suits s (normalizePartition path) := by
          simp [LeavesEmpty, htakes, hpath]
        rw [hleaves]
        exact placed_write_of_takes hsaves hpath hready hlocal hp hw
      | error e u =>
        have hleaves : cfg.LeavesEmpty record s := by
          rintro ⟨t', ht', hreturns⟩
          rw [hp] at ht'
          cases ht'
          unfold raises at hreturns
          rw [hw] at hreturns
          cases hreturns
        have hstore : cfg.store record s = .error e u := by
          unfold store
          rw [bind_of_ok hp, bind_of_error hw]
        have hwrite : finalState (cfg.write record) s = u :=
          finalState_of_error (bind_of_error hstore _)
        obtain ⟨file, hfile, _⟩ := hready.file
        have hsame := (ensures_writeLocal_grows hsaves record hfile
          (hready.orderly.isOpen file hfile)).of_error hw
          (hnothing t hp (by unfold raises; rw [hw]))
        obtain ⟨horderly, hroom', hplaced⟩ := hsame.kept hready.orderly hready.hasRoom hleaves
        rw [hwrite]
        exact ⟨horderly, hroom', hplaced.trans (and_congr_left' hready.placed)⟩

/-! ## Runs -/

/-- No file is closed. -/
def AllOpen (s : S3SinkState ρ) : Prop := ∀ file, s.active = some file → file.closed = false

/-- **What a run keeps** in which writes that raise leave nothing: the files are in order, and what
is stored is what was accepted. -/
structure InOrder (cfg : S3Sink ρ) (s : S3SinkState ρ) : Prop where
  orderly : cfg.Orderly s
  hasRoom : cfg.HasRoom s
  exact : cfg.Exact s

/-- **What it keeps once a write has raised and left its record**: a record is stored that was not
accepted. -/
structure Stray (cfg : S3Sink ρ) (s : S3SinkState ρ) : Prop where
  booked : cfg.Booked s
  allOpen : AllOpen s
  stray : ∃ entry ∈ cfg.stored s, entry ∉ s.accepted

/-- The files are in order, and the records in place. -/
structure AllPlaced (cfg : S3Sink ρ) (s : S3SinkState ρ) : Prop where
  inOrder : cfg.InOrder s
  placed : cfg.Placed s

/-- A sink that stores what was not accepted is not in order. -/
theorem Stray.not_allPlaced (h : cfg.Stray s) : ¬ cfg.AllPlaced s := by
  intro hplaced
  obtain ⟨entry, hstored, hnot⟩ := h.stray
  rw [hplaced.inOrder.exact.stored] at hstored
  exact hnot hstored

theorem Orderly.allOpen (hs : cfg.Orderly s) : AllOpen s :=
  fun _ hactive => hs.isOpen _ (view_of_active hactive)

/-- A write to an open file is none to a closed one. -/
theorem AllOpen.avoidsClosed (hopen : AllOpen s) (record : ρ) : cfg.AvoidsClosed record s := by
  intro _ file hactive hclosed
  rw [hopen file hactive] at hclosed
  cases hclosed

/-! ### What is open stays so -/

theorem allOpen_of_none (h : s.active = none) : AllOpen s := by
  intro file hactive
  rw [h] at hactive
  cases hactive

theorem AllOpen.called {call : LocalCall ρ} (h : AllOpen s) (hcall : call.isClose = false) :
    AllOpen (called call s) := by
  intro file hactive
  obtain ⟨active, hs, rfl⟩ := Option.map_eq_some_iff.1 hactive
  rw [closed_called, h active hs, hcall]
  rfl

theorem AllOpen.countRecord (h : AllOpen s) : AllOpen (countRecord s) := by
  intro file hactive
  obtain ⟨active, hs, rfl⟩ := Option.map_eq_some_iff.1 hactive
  exact h active hs

/-- **What comes before a write** leaves the file open, if only the local sink fails. -/
theorem ensures_prepare_open (hsaves : cfg.localSink.Saves) {record : ρ} (hs : AllOpen s)
    (hlocal : cfg.OnlyLocalFailures record s) :
    Ensures (cfg.prepare record) s (fun _ t => AllOpen t) := by
  have hprepare := ensures_prepare_still hsaves record s
  cases hpath : cfg.partitionPathFn record with
  | error e =>
    refine hprepare.mono (fun r t ht file hfile => ?_)
    by_contra hclosed
    rw [Bool.not_eq_false] at hclosed
    have hthere := ((ht.2 file hfile hclosed).1 e hpath).2
    exact Bool.false_ne_true ((hs file hthere).symm.trans hclosed)
  | ok path =>
    refine hprepare.of_not_raises (hlocal.1 path hpath) (fun _ t ht file hfile => ?_)
    by_contra hclosed
    rw [Bool.not_eq_false] at hclosed
    have hthere := ((ht.2 file hfile hclosed).2 path hpath rfl).1
    exact Bool.false_ne_true ((hs file hthere).symm.trans hclosed)

theorem ensures_rollOver_open (hsaves : cfg.localSink.Saves) (hs : AllOpen s) :
    Ensures cfg.rollOver s (fun r t => r = .ok ⟨⟩ → AllOpen t) := by
  unfold rollOver
  rw [ensures_bind, ensures_get]
  dsimp only
  split
  · exact (ensures_finalizeActiveFile_still hsaves s).mono
      (fun r t ht hr => allOpen_of_none (ht.2 hr))
  · exact fun _ => hs

/-- **A write closes no file**, if nothing raises but the local file. -/
theorem ensures_write_open (hsaves : cfg.localSink.Saves) {record : ρ} (hs : AllOpen s)
    (hlocal : cfg.OnlyLocalFailures record s) :
    Ensures (cfg.write record) s (fun _ t => AllOpen t) := by
  have hstore : Ensures (cfg.store record) s (fun _ t => AllOpen t) := by
    refine (ensures_prepare_open hsaves hs hlocal).bind (fun _ t ht => ?_) (fun _ _ ht => ht)
    have hwrite : Ensures (cfg.writeLocal record) t (fun _ u => AllOpen u) :=
      ensures_writeLocal (fun _ _ => ht)
        (fun _ _ _ script => AllOpen.called (s := { number t with script }) ht rfl)
        (fun _ script => AllOpen.called (s := { number t with script }) ht rfl)
    refine hwrite.bind (fun entry u hu => ?_) (fun _ _ hu => hu)
    rw [ensures_bind, ensures_modify]
    exact AllOpen.countRecord hu
  unfold write
  rw [ensures_bind]
  cases hm : cfg.store record s with
  | error e t =>
    rw [ensures_iff_of_error hm] at hstore ⊢
    exact hstore
  | ok entry t =>
    rw [ensures_iff_of_ok hm] at hstore ⊢
    dsimp only
    rw [ensures_bind]
    refine (ensures_rollOver_open hsaves hstore).of_not_raises (raises_rollOver hlocal.2 hm)
      (fun _ u hu => ?_)
    dsimp only
    rw [ensures_modify]
    exact hu rfl

/-! ### What has strayed stays -/

/-- What is accepted after a record has strayed is another one. -/
theorem ensures_write_stray (hsaves : cfg.localSink.Saves) {record : ρ} (hs : cfg.Stray s)
    (hlocal : cfg.OnlyLocalFailures record s) :
    Ensures (cfg.write record) s (fun _ t => cfg.Stray t) := by
  have havoids : cfg.AvoidsClosed record s := hs.allOpen.avoidsClosed record
  refine (((ensures_write hsaves havoids).and
    (ensures_write_booked hsaves record s havoids hs.booked)).and
    (ensures_write_open hsaves hs.allOpen hlocal)).mono (fun r t ht => ⟨ht.1.2, ht.2, ?_⟩)
  obtain ⟨entry, hstored, hnot⟩ := hs.stray
  obtain ⟨htidy, h⟩ := ht.1.1 hs.booked.tidy
  cases r with
  | ok _ =>
    obtain ⟨entry', hstored', haccepted⟩ := h
    refine ⟨entry, by rw [hstored']; exact List.mem_append_left _ hstored, ?_⟩
    have hnodup := htidy.nodup
    rw [hstored'] at hnodup
    rw [haccepted, List.mem_append, not_or]
    exact ⟨hnot, fun hmem => List.disjoint_of_nodup_append hnodup hstored hmem⟩
  | error _ =>
    rw [h.2]
    exact ⟨entry, h.1.subset hstored, hnot⟩

/-! ### A write -/

/-- **A local write that raises** leaves its record if the file keeps it, and nothing otherwise. -/
theorem ensures_writeLocal_raised (hsaves : cfg.localSink.Saves) (record : ρ) (hs : cfg.Tidy s)
    (hopen : AllOpen s) :
    Ensures (cfg.writeLocal record) s (fun r t => ∀ e, r = .error e →
      (cfg.KeepsNothing record s → cfg.Still s t)
        ∧ (¬ cfg.KeepsNothing record s → ∃ entry, cfg.Takes entry s t)) := by
  refine ensures_writeLocal (fun hnone _ _ _ => ⟨fun _ => refl_of cfg.Still s, fun hkeeps => ?_⟩)
    (fun _ _ _ _ _ => by rintro ⟨⟩) (fun _ script _ _ => ⟨fun hnothing => ?_, fun hkeeps => ?_⟩)
  · refine absurd (fun file hactive => ?_) hkeeps
    rw [hnone] at hactive
    cases hactive
  · exact trans_of cfg.Still (still_number s)
      (still_called (s := number s) (fun file hactive _ => hnothing file hactive) script)
  · unfold KeepsNothing at hkeeps
    push Not at hkeeps
    obtain ⟨file, hactive, hne⟩ := hkeeps
    have hstored : file.stored = false := by
      by_contra hstored
      rw [Bool.not_eq_false] at hstored
      exact Bool.false_ne_true ((hopen file hactive).symm.trans (hs.kept file hactive hstored).2)
    exact ⟨_, takes_called hactive hstored ((hsaves.failed _ _).resolve_left hne) script⟩

/-- The state in which the record is written. -/
theorem prepared (hsaves : cfg.localSink.Saves) {record : ρ} (hs : cfg.Tidy s) (hopen : AllOpen s)
    (hlocal : cfg.OnlyLocalFailures record s) (hp : cfg.prepare record s = .ok ⟨⟩ t) :
    cfg.Still s t ∧ cfg.Tidy t ∧ AllOpen t := by
  have hstill := ((ensures_prepare_still hsaves record s).of_ok hp).1
  exact ⟨hstill, (hstill hs).1, (ensures_prepare_open hsaves hopen hlocal).of_ok hp⟩

/-- **A write that leaves nothing** behind changes nothing that is stored. -/
theorem still_of_leavesNothing (hsaves : cfg.localSink.Saves) {record : ρ} {e : Exc}
    (hs : cfg.Tidy s) (hopen : AllOpen s) (hlocal : cfg.OnlyLocalFailures record s)
    (hnothing : cfg.LeavesNothing record s) (h : cfg.store record s = .error e t) :
    cfg.Still s t := by
  unfold store at h
  cases hp : cfg.prepare record s with
  | error e' u =>
    rw [bind_of_error hp] at h
    cases h
    exact ((ensures_prepare_still hsaves record s).of_error hp).1
  | ok _ u =>
    rw [bind_of_ok hp] at h
    obtain ⟨hstill, hu, hopen'⟩ := prepared hsaves hs hopen hlocal hp
    cases hw : cfg.writeLocal record u with
    | ok entry v =>
      rw [bind_of_ok hw] at h
      cases h
    | error e' v =>
      rw [bind_of_error hw] at h
      cases h
      refine trans_of cfg.Still hstill
        (((ensures_writeLocal_raised hsaves record hu hopen').of_error hw e rfl).1 ?_)
      exact hnothing u hp (by unfold raises; rw [hw])

/-- **One that leaves something** has taken the record and raised. -/
theorem takes_of_not_leavesNothing (hsaves : cfg.localSink.Saves) {record : ρ} (hs : cfg.Tidy s)
    (hopen : AllOpen s) (hlocal : cfg.OnlyLocalFailures record s)
    (hleaves : ¬ cfg.LeavesNothing record s) :
    ∃ e t entry, cfg.store record s = .error e t ∧ cfg.Takes entry s t := by
  unfold LeavesNothing at hleaves
  push Not at hleaves
  obtain ⟨u, hp, hraises, hkeeps⟩ := hleaves
  obtain ⟨hstill, hu, hopen'⟩ := prepared hsaves hs hopen hlocal hp
  cases hw : cfg.writeLocal record u with
  | ok entry v =>
    unfold raises at hraises
    rw [hw] at hraises
    cases hraises
  | error e v =>
    obtain ⟨entry, htakes⟩ :=
      ((ensures_writeLocal_raised hsaves record hu hopen').of_error hw e rfl).2 hkeeps
    refine ⟨e, v, entry, ?_, Takes.after hstill htakes⟩
    unfold store
    rw [bind_of_ok hp, bind_of_error hw]

/-- **A write that keeps to it** leaves the files in order; after any other a record has strayed. -/
theorem inOrder_or_stray_write (hsaves : cfg.localSink.Saves) {record : ρ} (hs : cfg.InOrder s)
    (hlocal : cfg.OnlyLocalFailures record s) :
    cfg.LeavesNothing record s ∧ cfg.InOrder (finalState (cfg.write record) s)
      ∨ ¬ cfg.LeavesNothing record s ∧ cfg.Stray (finalState (cfg.write record) s) := by
  have hopen := hs.orderly.allOpen
  have havoids : cfg.AvoidsClosed record s := hopen.avoidsClosed record
  by_cases hnothing : cfg.LeavesNothing record s
  · obtain ⟨horderly, hroom, _⟩ :=
      placed_write_iff hsaves hs.orderly hs.hasRoom hlocal hnothing
    refine .inl ⟨hnothing, horderly, hroom, ?_⟩
    exact (ensures_write_exact hsaves havoids
      (fun _ _ => still_of_leavesNothing hsaves hs.exact.tidy hopen hlocal hnothing) hlocal.2
      hs.exact).finalState
  · obtain ⟨e, t, entry, hstore, htakes⟩ :=
      takes_of_not_leavesNothing hsaves hs.exact.tidy hopen hlocal hnothing
    have hwrite : finalState (cfg.write record) s = t :=
      finalState_of_error (bind_of_error hstore _)
    have hbooked : cfg.Booked s := ⟨hs.exact.tidy, by rw [hs.exact.stored]; exact fun _ h => h⟩
    have hbooked' := (ensures_write_booked hsaves record s havoids hbooked).finalState
    have hopen' := (ensures_write_open hsaves hopen hlocal).finalState
    rw [hwrite] at hbooked' hopen' ⊢
    refine .inr ⟨hnothing, hbooked', hopen', entry, ?_⟩
    obtain ⟨htidy, hstored, haccepted⟩ := htakes hs.exact.tidy
    have hnodup := htidy.nodup
    rw [hstored] at hnodup
    rw [hstored, haccepted, ← hs.exact.stored]
    exact ⟨List.mem_append_right _ List.mem_cons_self,
      fun hmem => List.disjoint_of_nodup_append hnodup hmem List.mem_cons_self⟩

/-- What a run keeps, whatever its writes leave. -/
def Kept (cfg : S3Sink ρ) (s : S3SinkState ρ) : Prop := cfg.InOrder s ∨ cfg.Stray s

/-- **A write puts its record in place** just if it leaves an empty file to its partition, and
nothing when it raises. -/
theorem allPlaced_write_iff (hsaves : cfg.localSink.Saves) {record : ρ} (hs : cfg.Kept s)
    (hlocal : cfg.OnlyLocalFailures record s) :
    cfg.Kept (finalState (cfg.write record) s)
      ∧ (cfg.AllPlaced (finalState (cfg.write record) s)
        ↔ cfg.AllPlaced s ∧ cfg.Respectful record s) := by
  rcases hs with hs | hs
  · rcases inOrder_or_stray_write hsaves hs hlocal with ⟨hnothing, ht⟩ | ⟨hleaves, ht⟩
    · obtain ⟨_, _, hiff⟩ := placed_write_iff hsaves hs.orderly hs.hasRoom hlocal hnothing
      refine ⟨.inl ht, fun h => ?_, fun h => ⟨ht, hiff.2 ⟨h.1.placed, h.2.leavesEmpty⟩⟩⟩
      obtain ⟨hplaced, hempty⟩ := hiff.1 h.placed
      exact ⟨⟨hs, hplaced⟩, hempty, hnothing⟩
    · exact ⟨.inr ht, iff_of_false ht.not_allPlaced (fun h => hleaves h.2.leavesNothing)⟩
  · have ht := (ensures_write_stray hsaves hs hlocal).finalState
    exact ⟨.inr ht, iff_of_false ht.not_allPlaced (fun h => hs.not_allPlaced h.1)⟩

/-- **A batch** keeps the records in their places just if each of its writes does. By induction on
the records. -/
theorem allPlaced_writeBatch_iff (hsaves : cfg.localSink.Saves) {records : List ρ}
    (hs : cfg.Kept s) (hlocal : cfg.Each cfg.OnlyLocalFailures records s) :
    cfg.Kept (finalState (cfg.writeBatch records) s)
      ∧ (cfg.AllPlaced (finalState (cfg.writeBatch records) s)
        ↔ cfg.AllPlaced s ∧ cfg.Each cfg.Respectful records s) := by
  induction records generalizing s with
  | nil => exact ⟨hs, (and_iff_left trivial).symm⟩
  | cons record records ih =>
    obtain ⟨hkept, hplaced⟩ := allPlaced_write_iff hsaves hs hlocal.1
    have hbatch : finalState (cfg.writeBatch (record :: records)) s
        = match cfg.write record s with
          | .ok _ t => finalState (cfg.writeBatch records) t
          | .error _ t => t := by
      show finalState (cfg.write record >>= fun _ => records.forM cfg.write) s = _
      rw [finalState_bind]
      cases cfg.write record s <;> rfl
    rw [hbatch]
    cases hw : cfg.write record s with
    | error e t =>
      rw [finalState_of_error hw] at hkept hplaced
      refine ⟨hkept, hplaced.trans (and_congr_right' ?_)⟩
      exact (and_iff_left (fun t' ht' => by rw [hw] at ht'; cases ht')).symm
    | ok _ t =>
      rw [finalState_of_ok hw] at hkept hplaced
      obtain ⟨hkept', hrest⟩ := ih hkept (hlocal.2 t hw)
      refine ⟨hkept', hrest.trans ?_⟩
      rw [hplaced, and_assoc]
      refine and_congr_right' (and_congr_right' ⟨fun h t' ht' => ?_, fun h => h t hw⟩)
      rw [hw] at ht'
      cases ht'
      exact h

/-! ### Runs -/

/-- What touches no file keeps the order. -/
theorem InOrder.of_sameFiles (h : cfg.SameFiles s t) (hstill : cfg.Still s t) (hs : cfg.InOrder s) :
    cfg.InOrder t :=
  ⟨h.orderly hs.orderly, h.hasRoom hs.hasRoom, exact_of_still hstill hs.exact⟩

/-- A record that is out of place stays so. -/
theorem Stray.of_still (hstill : cfg.Still s t) (hopen : AllOpen t) (hs : cfg.Stray s) :
    cfg.Stray t := by
  obtain ⟨_, hstored, haccepted⟩ := hstill hs.booked.tidy
  refine ⟨booked_of_still hstill hs.booked, hopen, ?_⟩
  rw [hstored, haccepted]
  exact hs.stray

/-- **`flush`** moves no record. -/
theorem allPlaced_flush_iff (hsaves : cfg.localSink.Saves) (hs : cfg.Kept s) :
    cfg.Kept (finalState flush s) ∧ (cfg.AllPlaced (finalState flush s) ↔ cfg.AllPlaced s) := by
  have hstill := (respects_flushActiveFile hsaves s).finalState
  have hflush : Ensures flush s (fun _ t => cfg.SameFiles s t ∧ (AllOpen s → AllOpen t)) := by
    unfold flush flushActiveFile
    rw [ensures_bind, ensures_get]
    dsimp only
    cases hactive : s.active with
    | none => exact ⟨⟨rfl, rfl, rfl⟩, id⟩
    | some file =>
      have hview : ∀ script returned,
          cfg.view (called (.flush returned) { s with script }) = cfg.view s := by
        intro script returned
        rw [view_called (s := { s with script }) hactive rfl, hsaves.flushed,
          view_of_active hactive]
        rfl
      exact ensures_callLocal
        (fun script => ⟨⟨rfl, hview script true, rfl⟩,
          fun h => AllOpen.called (s := { s with script }) h rfl⟩)
        (fun _ script => ⟨⟨rfl, hview script false, rfl⟩,
          fun h => AllOpen.called (s := { s with script }) h rfl⟩)
  obtain ⟨hsame, hopen⟩ := hflush.finalState
  rcases hs with hs | hs
  · have ht := hs.of_sameFiles hsame hstill
    exact ⟨.inl ht, fun h => ⟨hs, (placed_congr hsame.files).1 h.placed⟩,
      fun h => ⟨ht, (placed_congr hsame.files).2 h.placed⟩⟩
  · have ht := hs.of_still hstill (hopen hs.allOpen)
    exact ⟨.inr ht, iff_of_false ht.not_allPlaced hs.not_allPlaced⟩

/-- **A sink that is closed** has its files in its objects. -/
theorem ensures_close_files (hs : cfg.Orderly s) (hroom : cfg.HasRoom s) :
    Ensures cfg.close s (fun r t => r = .ok ⟨⟩ →
      cfg.Orderly t ∧ cfg.HasRoom t ∧ cfg.files t = cfg.files s) := by
  unfold close
  rw [ensures_bind, ensures_get]
  dsimp only
  cases hactive : s.active with
  | none =>
    have hawait : Ensures await s (fun _ t => cfg.SameFiles s t) := ensures_await_same
    exact hawait.mono (fun r t ht _ => ⟨ht.orderly hs, ht.hasRoom hroom, ht.files⟩)
  | some file =>
    have hview : cfg.view s = some (cfg.look file) := view_of_active hactive
    refine (ensures_finalizeActiveFile_uploads hactive).bind (fun _ t ht => ?_)
      (fun _ _ _ => by rintro ⟨⟩)
    have huploads := ht rfl
    have hawait : Ensures await t (fun _ u => cfg.SameFiles t u) := ensures_await_same
    refine hawait.mono (fun r u hu _ => ⟨?_, ?_, ?_⟩)
    · exact hu.orderly (huploads.orderly hview hs)
    · exact hu.hasRoom (hasRoom_of_none huploads.active)
    · rw [hu.files, huploads.files hview]

/-- **Nor does `close`**, which leaves no file when it returns. -/
theorem allPlaced_close_iff (hsaves : cfg.localSink.Saves) (hs : cfg.Kept s)
    (hreturns : raises cfg.close s = false) :
    cfg.Kept (finalState cfg.close s)
      ∧ (cfg.AllPlaced (finalState cfg.close s) ↔ cfg.AllPlaced s)
      ∧ (finalState cfg.close s).active = none := by
  obtain ⟨_, hclose⟩ := (ensures_close_still hsaves s).finalState_of_raises hreturns
  have hnone := hclose.2 rfl
  rcases hs with hs | hs
  · obtain ⟨_, hfiles⟩ := (ensures_close_files hs.orderly hs.hasRoom).finalState_of_raises hreturns
    obtain ⟨horderly, hroom, hsame⟩ := hfiles rfl
    have ht : cfg.InOrder (finalState cfg.close s) :=
      ⟨horderly, hroom, exact_of_still hclose.1 hs.exact⟩
    exact ⟨.inl ht, ⟨fun h => ⟨hs, (placed_congr hsame).1 h.placed⟩,
      fun h => ⟨ht, (placed_congr hsame).2 h.placed⟩⟩, hnone⟩
  · have ht := hs.of_still hclose.1 (allOpen_of_none hnone)
    exact ⟨.inr ht, iff_of_false ht.not_allPlaced hs.not_allPlaced, hnone⟩

/-- **What every call keeps**, and when its records are in place. -/
theorem allPlaced_step_iff (hsaves : cfg.localSink.Saves) {c : Call ρ} (hs : cfg.Kept s)
    (hlocal : cfg.CallOnlyLocalFailures s c) (ht : cfg.step s c = some t) :
    cfg.Kept t ∧ (cfg.AllPlaced t ↔ cfg.AllPlaced s ∧ cfg.EachWrite cfg.Respectful s c) := by
  cases ht
  cases c with
  | write record => exact allPlaced_write_iff hsaves hs hlocal.1
  | writeBatch records => exact allPlaced_writeBatch_iff hsaves hs hlocal.1
  | flush =>
    obtain ⟨hkept, hiff⟩ := allPlaced_flush_iff hsaves hs
    exact ⟨hkept, hiff.trans (and_iff_left trivial).symm⟩
  | close =>
    obtain ⟨hkept, hiff, _⟩ := allPlaced_close_iff hsaves hs (hlocal.2 rfl)
    exact ⟨hkept, hiff.trans (and_iff_left trivial).symm⟩

/-- The objects of a sink that is closed are laid out just if all is in place. -/
theorem laidOut_iff (hs : cfg.Kept s) (hnone : s.active = none) :
    cfg.LaidOut s ↔ cfg.AllPlaced s := by
  have hfiles : cfg.files s = s.objects := files_of_none (view_of_none hnone)
  rcases hs with hs | hs
  · have hrecords : s.uploaded = s.accepted := by
      rw [← hs.exact.stored, stored_of_forgotten hnone]
    constructor
    · intro h
      refine ⟨hs, ?_⟩
      unfold Placed
      rw [hfiles]
      exact h.partitions
    · intro h
      refine ⟨?_, ?_, hs.orderly.sizes, hrecords⟩
      · -- the keys have the numbers of the objects in them
        rw [List.nodup_iff_getElem?_ne_getElem?]
        intro i j hij hj heq
        have hmap : ∀ k, (s.objects.map Prod.fst)[k]? = s.objects[k]?.map Prod.fst :=
          fun k => List.getElem?_map
        rw [List.length_map] at hj
        rw [hmap, hmap, List.getElem?_eq_getElem (hij.trans hj), List.getElem?_eq_getElem hj] at heq
        obtain ⟨p, hp⟩ := hs.orderly.keys i _ (List.getElem?_eq_getElem (hij.trans hj))
        obtain ⟨q, hq⟩ := hs.orderly.keys j _ (List.getElem?_eq_getElem hj)
        have hkeys := Option.some.inj heq
        rw [hp, hq] at hkeys
        exact hij.ne (fileIndex_of_buildObjectKey cfg hkeys)
      · rw [← hfiles]
        exact h.placed
  · -- what has strayed is in an object, and not accepted
    refine iff_of_false (fun h => ?_) hs.not_allPlaced
    obtain ⟨entry, hstored, hnot⟩ := hs.stray
    rw [stored_of_forgotten hnone, h.records] at hstored
    exact hnot hstored

theorem inOrder_init (cfg : S3Sink ρ) (connected : Bool) (script : List Reply) :
    cfg.InOrder { connected, script } := by
  refine ⟨⟨rfl, ?_, ?_, ?_, ?_, ?_, ?_, ?_⟩, ?_, exact_init cfg connected script⟩
  · rintro i o ho
    cases ho
  · rintro o ho
    cases ho
  all_goals
    rintro file hfile
    cases hfile

/-- **The objects are laid out** just if no write that fails leaves an empty file to a record of
another partition, and none leaves its record. -/
theorem laidOut_iff_allSteps (cfg : S3Sink ρ) (hsaves : cfg.localSink.Saves) (connected : Bool)
    (script : List Reply) (calls : List (Call ρ)) {t : S3SinkState ρ}
    (hlocal : Machine.AllSteps cfg.step (fun s c _ => cfg.CallOnlyLocalFailures s c)
      { connected, script } (calls ++ [.close]))
    (hrun : Machine.run cfg.step { connected, script } (calls ++ [.close]) = some t) :
    cfg.LaidOut t ↔ Machine.AllSteps cfg.step (fun s c _ => cfg.EachWrite cfg.Respectful s c)
      { connected, script } (calls ++ [.close]) := by
  have hinit := inOrder_init cfg connected script
  have hplaced : cfg.AllPlaced { connected, script } := by
    refine ⟨hinit, ?_⟩
    rintro i o ho
    cases ho
  have hstep : ∀ s c u, cfg.Kept s → cfg.CallOnlyLocalFailures s c → cfg.step s c = some u →
      cfg.Kept u ∧ (cfg.AllPlaced u ↔ cfg.AllPlaced s ∧ cfg.EachWrite cfg.Respectful s c) :=
    fun s c u hs hg hu => allPlaced_step_iff hsaves hs hg hu
  obtain ⟨hkept, hiff⟩ := Machine.run_iff_allSteps hstep (.inl hinit) hlocal hrun
  have hclose : ∀ s c u, cfg.Kept s → cfg.CallOnlyLocalFailures s c → cfg.step s c = some u →
      cfg.Kept u ∧ (c = .close → u.active = none) := by
    intro s c u hs hg hu
    refine ⟨(hstep s c u hs hg hu).1, ?_⟩
    rintro rfl
    cases hu
    exact (allPlaced_close_iff hsaves hs (hg.2 rfl)).2.2
  have hclosed : Machine.AllSteps cfg.step (fun _ c u => c = .close → u.active = none)
      { connected, script } (calls ++ [.close]) :=
    Machine.allSteps_of_step hclose (.inl hinit) hlocal
  have hnone : t.active = none := by
    have hrun' := hrun
    rw [Machine.run_append, Option.bind_eq_some_iff] at hrun'
    obtain ⟨u, hu, hlast⟩ := hrun'
    rw [Machine.run_cons, Option.bind_eq_some_iff] at hlast
    obtain ⟨v, hv, hvt⟩ := hlast
    cases hvt
    exact hclosed.last hu hv rfl
  rw [laidOut_iff hkept hnone, hiff]
  exact and_iff_right hplaced

/-- The replies to a first write that the local file raises. -/
def firstWriteRaises : List Reply := [.ok, .ok, .raises (.exception "ValueError" "")]

/-- The first write to partition `a` fails at the local file, and nothing fails after it. -/
theorem onlyLocalFailures_first {next : String} (h : next = "a" ∨ next = "b") :
    Machine.AllSteps partitioned.step (fun s c _ => partitioned.CallOnlyLocalFailures s c)
      { connected := true, script := firstWriteRaises }
      ([.write "a", .write next] ++ [.close]) := by
  rcases h with rfl | rfl
  all_goals
    refine fun t ht => ⟨⟨⟨fun path hpath => ?_, fun entry u hu => ?_⟩, nofun⟩, ?_⟩
    · decide +kernel
    · cases hu
    · cases ht
      refine fun t ht => ⟨⟨⟨fun path hpath => ?_, fun entry u hu hfull => ?_⟩, nofun⟩, ?_⟩
      · decide +kernel
      · cases hu
        revert hfull
        decide +kernel
      · cases ht
        refine fun t ht => ⟨⟨trivial, fun _ => ?_⟩, trivial⟩
        show raises partitioned.close _ = false
        decide +kernel

/-- A sink over a local sink that drops what it raises for leaves nothing. -/
theorem leavesNothing_of_drops (hdrops : cfg.localSink.Drops) (record : ρ) (s : S3SinkState ρ) :
    cfg.LeavesNothing record s :=
  fun _ _ _ file _ => hdrops file.calls _

/-- The next record is of the same partition, and the objects are laid out. -/
theorem laidOut_samePartition :
    ∃ t, Machine.run partitioned.step { connected := true, script := firstWriteRaises }
        ([.write "a", .write "a"] ++ [.close]) = some t ∧ partitioned.LaidOut t := by
  have hnothing : ∀ s, partitioned.LeavesNothing "a" s :=
    fun s => leavesNothing_of_drops drops_strictLocalSink "a" s
  refine ⟨_, rfl, (laidOut_iff_allSteps partitioned saves_strictLocalSink true firstWriteRaises _
    (onlyLocalFailures_first (.inl rfl)) rfl).2 ?_⟩
  refine fun t ht => ⟨⟨fun htakes path hpath file hfile => ?_, hnothing _⟩, ?_⟩
  · cases hfile
  · cases ht
    refine fun t ht => ⟨⟨fun htakes path hpath file hfile hzero => ?_, hnothing _⟩, ?_⟩
    · cases hpath
      cases hfile
      decide +kernel
    · cases ht
      exact fun t ht => ⟨trivial, trivial⟩

/-- **A record in another partition's object**: the first write to partition `a` fails, and what is
written to `b` next is uploaded with the key of `a`. -/
theorem not_laidOut_emptyFile :
    Machine.AllSteps partitioned.step (fun s c _ => partitioned.CallOnlyLocalFailures s c)
        { connected := true, script := firstWriteRaises }
        ([.write "a", .write "b"] ++ [.close])
      ∧ ∃ t, Machine.run partitioned.step { connected := true, script := firstWriteRaises }
          ([.write "a", .write "b"] ++ [.close]) = some t ∧ ¬ partitioned.LaidOut t := by
  refine ⟨onlyLocalFailures_first (.inr rfl), _, rfl, fun h => ?_⟩
  obtain ⟨path, hpath, hkey⟩ := h.partitions 0 _ rfl ("b", 1) List.mem_cons_self
  cases hpath
  revert hkey
  decide +kernel

end S3Sink

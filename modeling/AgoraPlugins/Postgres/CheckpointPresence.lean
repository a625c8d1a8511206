import AgoraPlugins.Dict
import AgoraPlugins.Fallible
import AgoraPlugins.Machine
import AgoraPlugins.Postgres.SourceStream

/-!
# The cursor of a checkpoint

The Postgres source keeps the cursor of the last row that it has mapped, the value of one checkpoint
field or a dict of several, and a checkpoint carries it. A `None` is no cursor: then the checkpoint
has only the number of rows, and a run that is resumed from it starts over.

A NULL in the only checkpoint field reads as `None`. So a row with a NULL takes the place of the
cursor that was there, and a row with a NULL in one of several fields leaves a dict with a `None` in
it, which no row of the resumed query compares with. Checkpoints keep a cursor without NULLs exactly
in the runs in which no such row is mapped after one without NULLs (`carries_iff_keepsNonNull`).
-/

open Machine

namespace PostgresCheckpoints

/-! ## Cursors -/

variable {V : Type}

/-- A row of a result; a value that is `none` is NULL. -/
abbrev Row (V : Type) := Dict String (Option V)

/-- **A cursor**: `None`, the value of a field, or a dict of the values of several. -/
inductive Cursor (V : Type) where
  | none
  | value (v : V)
  | dict (values : Dict String (Option V))

/-- A cursor with no `None` in it. -/
def Cursor.nonNull : Cursor V → Bool
  | none => false
  | value _ => true
  | dict values => values.entries.all (fun entry => entry.2.isSome)

/-- **What is returned by `current_checkpoint`**; the key of the cursor may be missing. -/
structure Checkpoint (V : Type) where
  rowNumber : ℕ
  cursor : Option (Cursor V)

/-! ## Checkpoint fields -/

def valueError (text : String) : Exc := .exception "ValueError" text

/-- **`validate_postgres_source_config`**, for the arguments that are about checkpoints. -/
def validatePostgresSourceConfig (checkpointField checkpointParam : Option String)
    (checkpointFields : Option (List String)) (checkpointParams : Option (Dict String String)) :
    Except Exc Unit :=
  let singularConfig := checkpointField.isSome || checkpointParam.isSome
  let compositeConfig := checkpointFields.isSome || checkpointParams.isSome
  if singularConfig && compositeConfig then
    .error (valueError ("Use either checkpoint_field/checkpoint_param or "
      ++ "checkpoint_fields/checkpoint_params, not both."))
  else if singularConfig && (checkpointField.isNone || checkpointParam.isNone) then
    .error (valueError "checkpoint_field and checkpoint_param must be provided together.")
  else if compositeConfig
      && (checkpointFields.getD [] = [] || (checkpointParams.getD ∅).entries = []) then
    .error (valueError "checkpoint_fields and checkpoint_params must be provided together.")
  else
    let missing := (checkpointFields.getD []).filter (fun field =>
      field ∉ checkpointParams.getD ∅)
    if missing ≠ [] then
      .error (valueError ("checkpoint_params must provide a query parameter for every "
        ++ "checkpoint field. Missing: [" ++ ", ".intercalate (missing.map (fun field =>
          "'" ++ field ++ "'")) ++ "]"))
    else .ok ()

end PostgresCheckpoints

/-- **The checkpoint arguments of a source**, as they are accepted, and what becomes of a row that
fails. -/
structure PostgresCheckpoints where
  checkpointField : Option String
  checkpointParam : Option String
  checkpointFields : Option (List String)
  checkpointParams : Option (Dict String String)
  onRecordError : SourceRecordFailurePolicy
  accepted : PostgresCheckpoints.validatePostgresSourceConfig checkpointField checkpointParam
    checkpointFields checkpointParams = .ok ()

namespace PostgresCheckpoints

variable {V : Type} (cfg : PostgresCheckpoints)

/-- The names of the checkpoint fields. -/
def names : List String :=
  match cfg.checkpointField with
  | some field => [field]
  | none => cfg.checkpointFields.getD []

/-- A row without a NULL in a checkpoint field. -/
def complete (row : Row V) : Bool := cfg.names.all (fun name => (row.lookup name).join.isSome)

/-- `supports_checkpoint`. -/
def supportsCheckpoint : Bool :=
  (cfg.checkpointField.getD "" ≠ "" && cfg.checkpointParam.getD "" ≠ "")
    || (cfg.checkpointFields.getD [] ≠ [] && (cfg.checkpointParams.getD ∅).entries ≠ [])

def keyError (field : String) : Exc :=
  .exception "KeyError" ("Checkpoint field '" ++ field ++ "' missing from row")

/-- The loop over several checkpoint fields. -/
def extractFields (row : Row V) (fields : List String) (cursor : Dict String (Option V)) :
    Except Exc (Dict String (Option V)) :=
  match fields with
  | [] => .ok cursor
  | field :: fields =>
    match row.lookup field with
    | none => .error (keyError field)
    | some value => extractFields row fields (cursor.insert field value)

/-- **`extract_checkpoint_cursor`.** -/
def extractCheckpointCursor (row : Row V) : Except Exc (Cursor V) :=
  match cfg.checkpointField with
  | some field =>
    match row.lookup field with
    | none => .error (keyError field)
    | some none => .ok .none
    | some (some value) => .ok (.value value)
  | none =>
    if cfg.checkpointFields.getD [] ≠ [] then do
      let cursor ← extractFields row (cfg.checkpointFields.getD []) ∅
      pure (.dict cursor)
    else .ok .none

/-! ## A run -/

/-- Where the read loop is. -/
inductive Phase (V : Type) where
  | idle
  /-- before the next row -/
  | reading
  | mapping (row : Row V) (cursor : Cursor V)
  /-- the caller has the record -/
  | yielding

/-- **The state of a source**, with the rows that have been mapped in the run. -/
structure State (V : Type) where
  rowsSeen : ℕ := 0
  lastCheckpointCursor : Cursor V := .none
  currentRowCheckpointCursor : Cursor V := .none
  recordErrorCount : ℕ := 0
  recordDropCount : ℕ := 0
  params : Dict String (Cursor V)
  phase : Phase V := .idle
  mapped : List (Row V) := []

/-- What happens to a source. -/
inductive Event (V : Type) where
  /-- `prepare_resume`, with the value of a checkpoint, if it is a dict -/
  | prepareResume (checkpoint : Option (Option (Checkpoint V)))
  /-- `stream` is called, and iterated -/
  | stream
  /-- the next row of the result -/
  | row (row : Row V)
  /-- the mapper returns a record, or `None` -/
  | mapped (isRecord : Bool)
  /-- the mapper raises, or the caller does where it has the record -/
  | failed
  /-- the caller asks for the next record -/
  | resumed
  /-- there are no more rows, or reading fails, or the stream is closed -/
  | closed

/-- **`reset_progress`.** -/
def resetProgress (s : State V) : State V :=
  { s with
    rowsSeen := 0
    lastCheckpointCursor := .none
    currentRowCheckpointCursor := .none
    recordErrorCount := 0
    recordDropCount := 0
    mapped := [] }

/-- The loop over several checkpoint fields, and what it raises. The text of the error ends with the
cursor, which is left out. -/
def applyFields (checkpointParams : Dict String String) (cursor : Dict String (Option V))
    (fields : List String) (params : Dict String (Cursor V)) :
    Dict String (Cursor V) × Option Exc :=
  match fields with
  | [] => (params, none)
  | field :: fields =>
    match checkpointParams.lookup field, cursor.lookup field with
    | none, _ => (params, some (.exception "KeyError" ("'" ++ field ++ "'")))
    | some _, none =>
      (params, some (valueError ("Checkpoint cursor is missing composite field '" ++ field ++ "'")))
    | some param, some value =>
      applyFields checkpointParams cursor fields (params.insert param (value.elim .none .value))

/-- **`prepare_resume`**, for base parameters, and what it raises. -/
def prepareResume (baseParams : Dict String (Cursor V))
    (checkpoint : Option (Option (Checkpoint V))) (s : State V) : State V × Option Exc :=
  let s := { resetProgress s with params := baseParams }
  match checkpoint.bind (fun value => value.bind Checkpoint.cursor) with
  | none => (s, none)
  | some cursor =>
    if ¬ cfg.supportsCheckpoint then (s, none)
    else
      match cfg.checkpointParam, cursor with
      | some param, cursor => ({ s with params := s.params.insert param cursor }, none)
      | none, .dict values =>
        let applied := applyFields (cfg.checkpointParams.getD ∅) values
          (cfg.checkpointFields.getD []) s.params
        ({ s with params := applied.1 }, applied.2)
      | none, _ =>
        (s, some (.exception "TypeError"
          "Composite PostgresSource checkpoints require cursor values to be dicts."))

/-- **`current_checkpoint`.** -/
def currentCheckpoint (s : State V) : Option (Checkpoint V) :=
  match s.lastCheckpointCursor with
  | .none => if s.rowsSeen ≤ 0 then none else some ⟨s.rowsSeen, none⟩
  | cursor => some ⟨s.rowsSeen, some cursor⟩

/-- `except Exception`, around a row. -/
def onRowError (s : State V) : State V :=
  match cfg.onRecordError with
  | .logAndContinue =>
    { s with
      recordErrorCount := s.recordErrorCount + 1
      recordDropCount := s.recordDropCount + 1
      currentRowCheckpointCursor := .none
      phase := .reading }
  | .failClosed =>
    { s with
      recordErrorCount := s.recordErrorCount + 1
      currentRowCheckpointCursor := .none
      phase := .idle }

variable (baseParams : Dict String (Cursor V))

/-- **What an event does.** -/
def step (s : State V) : Event V → Option (State V)
  | .prepareResume checkpoint => some (cfg.prepareResume baseParams checkpoint s).1
  | .stream =>
    match s.phase with
    | .idle => some { resetProgress s with phase := .reading }
    | _ => none
  | .row row =>
    match s.phase with
    | .reading =>
      let s := { s with rowsSeen := s.rowsSeen + 1 }
      match cfg.extractCheckpointCursor row with
      | .error _ => some (cfg.onRowError s)
      | .ok cursor =>
        some { s with currentRowCheckpointCursor := cursor, phase := .mapping row cursor }
    | _ => none
  | .mapped isRecord =>
    match s.phase with
    | .mapping row cursor =>
      let s := { s with lastCheckpointCursor := cursor, mapped := s.mapped ++ [row] }
      if isRecord then some { s with phase := .yielding }
      else
        some { s with
          recordDropCount := s.recordDropCount + 1
          currentRowCheckpointCursor := .none
          phase := .reading }
    | _ => none
  | .failed =>
    match s.phase with
    | .mapping _ _ | .yielding => some (cfg.onRowError s)
    | _ => none
  | .resumed =>
    match s.phase with
    | .yielding => some { s with currentRowCheckpointCursor := .none, phase := .reading }
    | _ => none
  | .closed => some { s with currentRowCheckpointCursor := .none, phase := .idle }

/-- A source that has been constructed. -/
def initial : State V := { params := baseParams }

/-! ## What the cursor of a row is -/

section Rows

variable {cfg} {row : Row V}

theorem lookup_extractFields {fields : List String} {cursor values : Dict String (Option V)}
    (h : extractFields row fields cursor = .ok values) (name : String) :
    values.lookup name = if name ∈ fields then row.lookup name else cursor.lookup name := by
  induction fields generalizing cursor with
  | nil =>
    obtain rfl := Except.ok.inj h
    rw [if_neg List.not_mem_nil]
  | cons field fields ih =>
    unfold extractFields at h
    cases hvalue : row.lookup field with
    | none =>
      rw [hvalue] at h
      cases h
    | some value =>
      rw [hvalue] at h
      rw [ih h]
      by_cases hname : name = field
      · rw [hname, AList.lookup_insert, hvalue, if_pos List.mem_cons_self, ite_self]
      · rw [AList.lookup_insert_ne hname]
        simp only [List.mem_cons, hname, false_or]

/-- Every checkpoint field is in a row of which a cursor is made. -/
theorem isSome_of_extractFields {fields : List String} {cursor values : Dict String (Option V)}
    (h : extractFields row fields cursor = .ok values) :
    ∀ name ∈ fields, (row.lookup name).isSome = true := by
  induction fields generalizing cursor with
  | nil => exact fun name hname => absurd hname List.not_mem_nil
  | cons field fields ih =>
    unfold extractFields at h
    cases hvalue : row.lookup field with
    | none =>
      rw [hvalue] at h
      cases h
    | some value =>
      rw [hvalue] at h
      exact List.forall_mem_cons.2 ⟨by rw [hvalue]; rfl, ih h⟩

theorem nonNull_dict_iff {values : Dict String (Option V)} :
    (Cursor.dict values).nonNull = true
      ↔ ∀ name value, values.lookup name = some value → value.isSome = true := by
  unfold Cursor.nonNull
  rw [List.all_eq_true]
  constructor
  · exact fun h name value hlookup => h ⟨name, value⟩ (AList.mem_lookup_iff.1 hlookup)
  · rintro h ⟨name, value⟩ hentry
    exact h name value (AList.mem_lookup_iff.2 hentry)

/-- **A cursor is without NULLs if its row is.** -/
theorem nonNull_of_extract {cursor : Cursor V} (hnames : cfg.names ≠ [])
    (h : cfg.extractCheckpointCursor row = .ok cursor) :
    cursor.nonNull = true ↔ cfg.complete row = true := by
  unfold extractCheckpointCursor at h
  unfold complete
  rw [List.all_eq_true]
  cases hfield : cfg.checkpointField with
  | some field =>
    have hone : cfg.names = [field] := by
      unfold names
      rw [hfield]
    rw [hfield] at h
    rw [hone, List.forall_mem_singleton]
    dsimp only at h
    cases hvalue : row.lookup field with
    | none =>
      rw [hvalue] at h
      cases h
    | some value =>
      rw [hvalue] at h
      cases value with
      | none =>
        obtain rfl := Except.ok.inj h
        exact Iff.rfl
      | some v =>
        obtain rfl := Except.ok.inj h
        exact iff_of_true rfl rfl
  | none =>
    have hall : cfg.names = cfg.checkpointFields.getD [] := by
      unfold names
      rw [hfield]
    rw [hfield, ← hall] at h
    dsimp only at h
    rw [if_pos hnames, Fallible.bind_eq_ok_iff] at h
    obtain ⟨values, hvalues, hcursor⟩ := h
    obtain rfl := Except.ok.inj hcursor
    rw [nonNull_dict_iff]
    constructor
    · intro hnon name hname
      obtain ⟨value, hvalue⟩ :=
        Option.isSome_iff_exists.1 (isSome_of_extractFields hvalues name hname)
      have hlookup := lookup_extractFields hvalues name
      rw [if_pos hname, hvalue] at hlookup
      rw [hvalue]
      exact hnon name value hlookup
    · intro hcomplete name value hlookup
      rw [lookup_extractFields hvalues name] at hlookup
      split_ifs at hlookup with hname
      · have hjoin := hcomplete name hname
        rwa [hlookup] at hjoin
      · rw [AList.lookup_empty] at hlookup
        cases hlookup

/-- Where several fields are accepted there is one at least. -/
theorem names_ne_nil (h : cfg.checkpointField.isSome = true ∨ cfg.checkpointFields.isSome = true) :
    cfg.names ≠ [] := by
  unfold names
  cases hfield : cfg.checkpointField with
  | some field => exact List.cons_ne_nil _ _
  | none =>
    rw [hfield] at h
    have hsome := h.resolve_left Bool.false_ne_true
    intro hnil
    have hnone : cfg.checkpointFields.getD [] = [] := hnil
    have haccepted := cfg.accepted
    unfold validatePostgresSourceConfig at haccepted
    rw [hfield, hsome, hnone] at haccepted
    cases hparam : cfg.checkpointParam with
    | none =>
      rw [hparam] at haccepted
      cases haccepted
    | some param =>
      rw [hparam] at haccepted
      cases haccepted

end Rows

/-! ## Runs -/

/-- **The checkpoint has a cursor without NULLs**, if a row without NULLs has been mapped. -/
def Carries (s : State V) : Prop :=
  (∃ row ∈ s.mapped, cfg.complete row = true) →
    ∃ checkpoint cursor, currentCheckpoint s = some checkpoint
      ∧ checkpoint.cursor = some cursor ∧ cursor.nonNull = true

/-- **No row with a NULL is mapped after one without NULLs.** -/
def keepsNonNull (s : State V) (e : Event V) : Bool :=
  match e, s.phase with
  | .mapped _, .mapping row _ => !s.mapped.any cfg.complete || cfg.complete row
  | _, _ => true

/-- The row that is being mapped has the cursor that is kept for it. -/
def Coherent (s : State V) : Prop :=
  ∀ row cursor, s.phase = .mapping row cursor → cfg.extractCheckpointCursor row = .ok cursor

section Runs

variable {cfg baseParams} {s t : State V} {e : Event V}

theorem carries_iff : cfg.Carries s ↔ ((∃ row ∈ s.mapped, cfg.complete row = true) →
    s.lastCheckpointCursor.nonNull = true) := by
  unfold Carries currentCheckpoint
  refine imp_congr_right (fun _ => ?_)
  cases s.lastCheckpointCursor with
  | none =>
    refine iff_of_false ?_ Bool.false_ne_true
    rintro ⟨checkpoint, cursor, hcheckpoint, hcursor, _⟩
    dsimp only at hcheckpoint
    split_ifs at hcheckpoint
    obtain rfl := Option.some.inj hcheckpoint
    cases hcursor
  | value v => exact iff_of_true ⟨_, _, rfl, rfl, rfl⟩ rfl
  | dict values =>
    constructor
    · rintro ⟨checkpoint, cursor, hcheckpoint, hcursor, hnon⟩
      obtain rfl := Option.some.inj hcheckpoint
      obtain rfl := Option.some.inj hcursor
      exact hnon
    · exact fun hnon => ⟨_, _, rfl, rfl, hnon⟩

theorem keepsNonNull_of_ne (h : ∀ isRecord, e ≠ .mapped isRecord) :
    cfg.keepsNonNull s e = true := by
  cases e with
  | mapped isRecord => exact absurd rfl (h isRecord)
  | _ => rfl

/-- **What an event can do**: the run starts again; or the cursor stays and no row is mapped; or the
row is mapped and its cursor takes the place of the last one. -/
theorem step_cases (h : cfg.step baseParams s e = some t) :
    (t.mapped = [] ∧ (∀ isRecord, e ≠ .mapped isRecord)
        ∧ (t.phase = s.phase ∨ t.phase = .reading))
      ∨ (t.mapped = s.mapped ∧ t.lastCheckpointCursor = s.lastCheckpointCursor
        ∧ (∀ isRecord, e ≠ .mapped isRecord)
        ∧ ∀ row cursor, t.phase = .mapping row cursor →
          cfg.extractCheckpointCursor row = .ok cursor)
      ∨ ∃ isRecord row cursor, e = .mapped isRecord ∧ s.phase = .mapping row cursor
        ∧ t.mapped = s.mapped ++ [row] ∧ t.lastCheckpointCursor = cursor
        ∧ ∀ row cursor, t.phase ≠ .mapping row cursor := by
  have herror : ∀ s : State V, (cfg.onRowError s).mapped = s.mapped
      ∧ (cfg.onRowError s).lastCheckpointCursor = s.lastCheckpointCursor
      ∧ ∀ row cursor, (cfg.onRowError s).phase ≠ .mapping row cursor := by
    intro s
    unfold onRowError
    cases cfg.onRecordError
    all_goals exact ⟨rfl, rfl, fun _ _ h => by cases h⟩
  cases e with
  | prepareResume checkpoint =>
    obtain rfl := Option.some.inj h
    refine .inl ⟨?_, fun _ h => (by cases h), .inl ?_⟩
    all_goals
      unfold prepareResume
      dsimp only
      split
      · rfl
      · split
        · rfl
        · split <;> rfl
  | stream =>
    unfold step at h
    dsimp only at h
    split at h
    · obtain rfl := Option.some.inj h
      exact .inl ⟨rfl, fun _ h => (by cases h), .inr rfl⟩
    · cases h
  | row row =>
    unfold step at h
    dsimp only at h
    split at h
    · split at h
      · obtain rfl := Option.some.inj h
        obtain ⟨hmapped, hlast, hphase⟩ := herror { s with rowsSeen := s.rowsSeen + 1 }
        exact .inr (.inl ⟨hmapped, hlast, fun _ h => (by cases h),
          fun row cursor h => absurd h (hphase row cursor)⟩)
      · rename_i cursor hcursor
        obtain rfl := Option.some.inj h
        refine .inr (.inl ⟨rfl, rfl, fun _ h => (by cases h), fun row' cursor' h => ?_⟩)
        cases h
        exact hcursor
    · cases h
  | mapped isRecord =>
    unfold step at h
    dsimp only at h
    split at h
    · rename_i row cursor hphase
      refine .inr (.inr ⟨isRecord, row, cursor, rfl, hphase, ?_⟩)
      split at h
      · obtain rfl := Option.some.inj h
        exact ⟨rfl, rfl, fun _ _ h => by cases h⟩
      · obtain rfl := Option.some.inj h
        exact ⟨rfl, rfl, fun _ _ h => by cases h⟩
    · cases h
  | failed =>
    unfold step at h
    dsimp only at h
    obtain ⟨hmapped, hlast, hphase⟩ := herror s
    split at h
    · obtain rfl := Option.some.inj h
      exact .inr (.inl ⟨hmapped, hlast, fun _ h => (by cases h),
        fun row cursor h => absurd h (hphase row cursor)⟩)
    · obtain rfl := Option.some.inj h
      exact .inr (.inl ⟨hmapped, hlast, fun _ h => (by cases h),
        fun row cursor h => absurd h (hphase row cursor)⟩)
    · cases h
  | resumed =>
    unfold step at h
    dsimp only at h
    split at h
    · obtain rfl := Option.some.inj h
      exact .inr (.inl ⟨rfl, rfl, fun _ h => (by cases h), fun _ _ h => by cases h⟩)
    · cases h
  | closed =>
    obtain rfl := Option.some.inj h
    exact .inr (.inl ⟨rfl, rfl, fun _ h => (by cases h), fun _ _ h => by cases h⟩)

end Runs

/-- **Checkpoints keep a cursor without NULLs in the runs** in which no row with a NULL is mapped
after one without NULLs, and in no other. -/
theorem carries_iff_keepsNonNull
    (hfields : cfg.checkpointField.isSome = true ∨ cfg.checkpointFields.isSome = true)
    (events : List (Event V)) :
    AllStates (cfg.step baseParams) cfg.Carries (initial baseParams) events
      ↔ AllSteps (cfg.step baseParams) (fun s e _ => cfg.keepsNonNull s e = true)
        (initial baseParams) events := by
  have hnames := names_ne_nil hfields
  refine allStates_iff_allSteps (I := cfg.Coherent) ?_ ?_ ?_ events
  · intro s e t hcoherent hcarries h
    rw [carries_iff] at hcarries ⊢
    rcases step_cases h with ⟨hmapped, hnot, hphase⟩ | ⟨hmapped, hlast, hnot, hphase⟩
      | ⟨isRecord, row, cursor, rfl, hmapping, hmapped, hlast, hphase⟩
    · refine ⟨fun row cursor hrow => ?_, iff_of_true ?_ ?_⟩
      · rcases hphase with hphase | hphase
        · exact hcoherent row cursor (hphase.symm.trans hrow)
        · cases hphase.symm.trans hrow
      · rintro ⟨row, hrow, _⟩
        rw [hmapped] at hrow
        exact absurd hrow List.not_mem_nil
      · exact keepsNonNull_of_ne hnot
    · rw [hmapped, hlast]
      exact ⟨hphase, iff_of_true hcarries (keepsNonNull_of_ne hnot)⟩
    · refine ⟨fun row cursor h => absurd h (hphase row cursor), ?_⟩
      have hcursor := nonNull_of_extract hnames (hcoherent row cursor hmapping)
      unfold keepsNonNull
      rw [hmapped, hlast, hcursor, hmapping]
      dsimp only
      rw [Bool.or_eq_true, Bool.not_eq_true', List.any_eq_false]
      constructor
      · intro hcomplete
        by_cases hsome : ∃ row ∈ s.mapped, cfg.complete row = true
        · obtain ⟨row', hrow', hcomplete'⟩ := hsome
          exact .inr (hcomplete ⟨row', List.mem_append_left _ hrow', hcomplete'⟩)
        · exact .inl (fun row' hrow' hcomplete' => hsome ⟨row', hrow', hcomplete'⟩)
      · rintro hkeeps ⟨row', hrow', hcomplete'⟩
        rcases List.mem_append.1 hrow' with hrow' | hrow'
        · exact hkeeps.resolve_left (fun h => h row' hrow' hcomplete')
        · rwa [List.mem_singleton.1 hrow'] at hcomplete'
  · exact fun row cursor h => by cases h
  · rintro ⟨row, hrow, _⟩
    exact absurd hrow List.not_mem_nil

/-! ## A row with a NULL after one without -/

/-- A source with one checkpoint field. -/
def idCheckpoints : PostgresCheckpoints where
  checkpointField := some "id"
  checkpointParam := some "last_id"
  checkpointFields := none
  checkpointParams := none
  onRecordError := .failClosed
  accepted := by decide

/-- A row with this value in its only field. -/
def idRow (value : Option ℕ) : Row ℕ := (∅ : Row ℕ).insert "id" value

/-- Two rows are read, and each is mapped to a record. -/
def twoRows (first second : Option ℕ) : List (Event ℕ) :=
  [.stream, .row (idRow first), .mapped true, .resumed, .row (idRow second), .mapped true]

/-- **The cursor is gone** after the second row. -/
theorem not_carries_null :
    ¬ AllStates (idCheckpoints.step ∅) idCheckpoints.Carries (initial ∅)
        (twoRows (some 5) none)
      ∧ (run (idCheckpoints.step ∅) (initial ∅) (twoRows (some 5) none)).bind currentCheckpoint
        = some ⟨2, none⟩ := by
  have hrun : (run (idCheckpoints.step ∅) (initial ∅) (twoRows (some 5) none)).bind
      currentCheckpoint = some ⟨2, none⟩ := rfl
  refine ⟨fun h => ?_, hrun⟩
  obtain ⟨t, ht, hcheckpoint⟩ := Option.bind_eq_some_iff.1 hrun
  have hmapped : (run (idCheckpoints.step ∅) (initial ∅) (twoRows (some 5) none)).map State.mapped
      = some [idRow (some 5), idRow none] := rfl
  rw [ht] at hmapped
  have hfive : ∃ row ∈ t.mapped, idCheckpoints.complete row = true := by
    rw [Option.some.inj hmapped]
    exact ⟨idRow (some 5), List.mem_cons_self, by decide⟩
  obtain ⟨checkpoint, cursor, hcurrent, hcursor, _⟩ := h.last ht hfive
  obtain rfl := Option.some.inj (hcheckpoint.symm.trans hcurrent)
  cases hcursor

/-- The checkpoint carries the cursor of the second row. -/
theorem carries_sevenAfterFive :
    AllStates (idCheckpoints.step ∅) idCheckpoints.Carries (initial ∅)
      (twoRows (some 5) (some 7)) :=
  (carries_iff_keepsNonNull idCheckpoints ∅ (.inl rfl) _).2 (by decide)

end PostgresCheckpoints

import AgoraPlugins.Fallible
import AgoraPlugins.Postgres.AlignedUpsert
import AgoraPlugins.Postgres.StrictUpsert

/-!
# Insert modes

A writer puts a batch into its table in one of three ways. `sql` executes
`INSERT … ON CONFLICT`, chunk by chunk. `copy`, for writers that do not upsert,
copies the rows into the table. `copy_merge` copies them into a staging table,
made `LIKE` the target `INCLUDING DEFAULTS`, and inserts what is there in one
statement.

Where the statements differ, so do the modes. `COPY` has no `ON CONFLICT`. A
statement that sets columns may not propose a key twice, and the one statement
of `copy_merge` is for the whole batch. A staging table has the defaults of the
target: a serial column that is left out draws a number for each row when it is
staged, and another when it is inserted. It has what is NOT NULL in the target,
but neither its identities nor its generated columns, and a column of these that
is left out is NULL there. And that the rows of a batch have the same columns is
checked by `sql` alone.

This is all. A flush with `copy_merge` does what one with `sql` does from the
numbers that staging leaves, and fails besides in the two cases named; one with
`copy` does what one with `sql` does, and fails where a key is there already.

The constraints are those that PostgreSQL checks row by row: `NOT NULL`, `CHECK`
and unique indexes. Foreign keys are checked when a statement ends, and the modes
have different statements; these, deferred constraints and triggers are left out.
-/

open Upsert

/-- Where a column has its value from that a statement does not list. -/
inductive ColumnKind (ν : Type) where
  /-- its default, NULL if there is none -/
  | plain (default : Option ν)
  /-- `DEFAULT nextval(…)` -/
  | serial
  /-- `GENERATED ALWAYS AS IDENTITY`, or `BY DEFAULT` -/
  | identity (always : Bool)
  /-- `GENERATED ALWAYS AS (…) STORED` -/
  | generated
  deriving DecidableEq

/-- What a column of a staging table is made of. -/
def ColumnKind.staged {ν : Type} : ColumnKind ν → ColumnKind ν
  | .plain default => .plain default
  | .serial => .serial
  | .identity _ => .plain none
  | .generated => .plain none

/-- Whether a column is left out of the values that an `INSERT` may give. -/
def ColumnKind.isAlways {ν : Type} : ColumnKind ν → Bool
  | .identity always => always
  | .generated => true
  | _ => false

/-- Why a batch is not accepted. -/
inductive Rejection where
  | writeError (error : PostgresSinkWriteError)
  /-- a `KeyError` -/
  | missingColumn
  /-- a `ValueError` -/
  | mismatchedColumns
  /-- `42601` -/
  | syntaxError
  /-- `42703` -/
  | undefinedColumn
  /-- `428C9` -/
  | generatedAlways
  /-- `42P10` -/
  | invalidColumnReference
  /-- of class 23 -/
  | constraintViolation
  /-- `21000` -/
  | cardinalityViolation
  deriving DecidableEq

variable {κ ν : Type} [DecidableEq κ]

/-- **The target table of a writer**, apart from its rows. The value of a
generated column is a function of the others, and is in no tuple. -/
structure TargetTable (cfg : WriteConfig κ ν) where
  kind : κ → Option (ColumnKind ν)
  notNull : Finset κ
  /-- the numbers that the sequence of a column gives -/
  number : κ → ℕ → ν
  /-- whether the conflict keys have a unique index -/
  hasUniqueIndex : Bool
  /-- what else is required of a row by itself -/
  check : Tuple κ ν → Bool := fun _ => true
  /-- what its further unique indexes require of a row, asked when it is written; what
  is asked at the end of a statement, as of a foreign key, is not here -/
  admits : Table κ ν → Tuple κ ν → Bool := fun _ _ => true
  keys_stored : ∀ c ∈ cfg.conflictKeys, kind c ≠ some .generated
  keys_ne_nil : hasUniqueIndex = true → cfg.conflictKeys ≠ []

/-- The modes that a writer may have. -/
def WriteConfig.insertModes (cfg : WriteConfig κ ν) : List InsertMode :=
  if cfg.upsert then [.sql, .copyMerge] else [.sql, .copy, .copyMerge]

/-- **A database**: the rows of the table, and how many numbers each sequence
has given. -/
@[ext] structure Db (κ ν : Type) where
  table : Table κ ν
  drawn : κ → ℕ

namespace TargetTable

variable {cfg : WriteConfig κ ν} (T : TargetTable cfg)

/-! ## Tuples -/

/-- Whether a column that is left out draws from a sequence. -/
def drawsNumber (c : κ) : Bool :=
  match T.kind c with
  | some .serial => true
  | some (.identity _) => true
  | _ => false

/-- The tuple for the values of some columns. -/
def fill (columns : Finset κ) (drawn : κ → ℕ) (values : Tuple κ ν) : Tuple κ ν := fun c =>
  if c ∈ columns then values c
  else
    match T.kind c with
    | some (.plain default) => default
    | some .serial => some (T.number c (drawn c))
    | some (.identity _) => some (T.number c (drawn c))
    | some .generated => none
    | none => none

/-- The sequences after a number of tuples. -/
def draw (columns : Finset κ) (count : ℕ) (drawn : κ → ℕ) : κ → ℕ := fun c =>
  if c ∉ columns ∧ T.drawsNumber c = true then drawn c + count else drawn c

/-- The tuples for lists of values, one after the other. -/
def tuples (columns : Finset κ) : (κ → ℕ) → List (Tuple κ ν) → List (Tuple κ ν)
  | _, [] => []
  | drawn, values :: rest =>
    T.fill columns drawn values :: tuples columns (T.draw columns 1 drawn) rest

/-- The values of a row. -/
def values (row : Row κ ν) : Tuple κ ν := fun c => (row.lookup c).getD none

variable {T}

theorem draw_zero (columns : Finset κ) (drawn : κ → ℕ) : T.draw columns 0 drawn = drawn := by
  funext c
  simp [draw]

theorem draw_draw (columns : Finset κ) (m n : ℕ) (drawn : κ → ℕ) :
    T.draw columns n (T.draw columns m drawn) = T.draw columns (m + n) drawn := by
  funext c
  by_cases h : c ∉ columns ∧ T.drawsNumber c = true
  · simp only [draw, if_pos h, Nat.add_assoc]
  · simp only [draw, if_neg h]

theorem tuples_append (columns : Finset κ) (xs ys : List (Tuple κ ν)) (drawn : κ → ℕ) :
    T.tuples columns drawn (xs ++ ys)
      = T.tuples columns drawn xs ++ T.tuples columns (T.draw columns xs.length drawn) ys := by
  induction xs generalizing drawn with
  | nil => simp [tuples, draw_zero]
  | cons x xs ih => simp [tuples, ih, draw_draw, Nat.add_comm]

/-- The tuples are those of the values, with some numbers. -/
theorem exists_of_mem_tuples {columns : Finset κ} {xs : List (Tuple κ ν)} {drawn : κ → ℕ}
    {tuple : Tuple κ ν} (h : tuple ∈ T.tuples columns drawn xs) :
    ∃ x ∈ xs, ∃ drawn', tuple = T.fill columns drawn' x := by
  induction xs generalizing drawn with
  | nil => simp [tuples] at h
  | cons x xs ih =>
    rcases List.mem_cons.1 h with rfl | h
    · exact ⟨x, List.mem_cons_self, drawn, rfl⟩
    · obtain ⟨y, hy, hfill⟩ := ih h
      exact ⟨y, List.mem_cons_of_mem _ hy, hfill⟩

/-- Every row is filled, with what is drawn by then. -/
theorem exists_fill_mem_tuples (T : TargetTable cfg) (columns : Finset κ)
    {xs : List (Tuple κ ν)} {x : Tuple κ ν} (h : x ∈ xs) (drawn : κ → ℕ) :
    ∃ drawn', T.fill columns drawn' x ∈ T.tuples columns drawn xs := by
  induction xs generalizing drawn with
  | nil => cases h
  | cons y ys ih =>
    rcases List.mem_cons.1 h with rfl | h
    · exact ⟨drawn, List.mem_cons_self⟩
    · obtain ⟨drawn', hmem⟩ := ih h (T.draw columns 1 drawn)
      exact ⟨drawn', List.mem_cons_of_mem _ hmem⟩

/-- Of what has been staged, only the columns that are listed count. -/
theorem tuples_tuples (S : TargetTable cfg) (columns : Finset κ) (xs : List (Tuple κ ν))
    (drawn drawn' : κ → ℕ) :
    T.tuples columns drawn' (S.tuples columns drawn xs) = T.tuples columns drawn' xs := by
  induction xs generalizing drawn drawn' with
  | nil => rfl
  | cons x xs ih =>
    have hfill : T.fill columns drawn' (S.fill columns drawn x) = T.fill columns drawn' x := by
      funext c
      by_cases hc : c ∈ columns <;> simp [fill, hc]
    simp only [tuples, hfill, ih]

theorem length_tuples (columns : Finset κ) (xs : List (Tuple κ ν)) (drawn : κ → ℕ) :
    (T.tuples columns drawn xs).length = xs.length := by
  induction xs generalizing drawn with
  | nil => rfl
  | cons x xs ih => simp [tuples, ih]

variable [DecidableEq ν] (T)

/-- Whether a tuple meets the constraints that are about it alone. -/
def valid (tuple : Tuple κ ν) : Bool :=
  decide (∀ c ∈ T.notNull, T.kind c = some .generated ∨ tuple c ≠ none) && T.check tuple

/-! ## Statements -/

/-- **A row is written**: the tuple, or what it makes of the row with its key. -/
def write (t : Table κ ν) (p : Proposal κ ν) : Except Rejection (Table κ ν) :=
  let row := merge p ((key cfg.conflictKeys p.tuple).bind t.byKey)
  if T.valid row && T.admits t row then .ok (upsert cfg.conflictKeys t p)
  else .error .constraintViolation

/-- **`INSERT … ON CONFLICT`**, from where it is: the keys of the rows it has
written, the table, and the tuples still to come. -/
def insertFrom (updates : Finset κ) :
    List (Key ν) → Table κ ν → List (Tuple κ ν) → Except Rejection (Table κ ν)
  | _, t, [] => .ok t
  | touched, t, tuple :: rest =>
    if T.valid tuple = false then .error .constraintViolation
    else
      match key cfg.conflictKeys tuple with
      | none => T.write t ⟨updates, tuple⟩ >>= fun u => insertFrom updates touched u rest
      | some k =>
        if (t.byKey k).isNone then
          T.write t ⟨updates, tuple⟩ >>= fun u => insertFrom updates (k :: touched) u rest
        else if updates = ∅ then insertFrom updates touched t rest
        else if touched.contains k then .error .cardinalityViolation
        else T.write t ⟨updates, tuple⟩ >>= fun u => insertFrom updates (k :: touched) u rest

/-- Why an `INSERT … ON CONFLICT` with values for some columns is not one. -/
def insertError (columns : Finset κ) : Option Rejection :=
  if columns = ∅ ∨ cfg.conflictKeys = [] then some .syntaxError
  else if ∃ c ∈ columns, T.kind c = none then some .undefinedColumn
  else if ∃ c ∈ columns, (T.kind c).any ColumnKind.isAlways = true then some .generatedAlways
  else if T.hasUniqueIndex = false then some .invalidColumnReference
  else none

/-- **The statement of a batch**, executed. -/
def insert (columns : Finset κ) (d : Db κ ν) (rows : List (Tuple κ ν)) :
    Except Rejection (Db κ ν) :=
  match T.insertError columns with
  | some e => .error e
  | none =>
    (T.insertFrom (cfg.updateSet columns) [] d.table (T.tuples columns d.drawn rows)).map
      (fun table => ⟨table, T.draw columns rows.length d.drawn⟩)

/-- Why a `COPY` of some columns is not one. -/
def copyError (columns : Finset κ) : Option Rejection :=
  if columns = ∅ then some .syntaxError
  else if ∃ c ∈ columns, T.kind c = none then some .undefinedColumn
  else if ∃ c ∈ columns, T.kind c = some .generated then some .invalidColumnReference
  else none

/-- What is copied: the rows must have the columns. -/
def copied (columns : Finset κ) (drawn : κ → ℕ) (rows : List (Row κ ν)) :
    Except Rejection (List (Tuple κ ν)) :=
  match T.copyError columns with
  | some e => .error e
  | none =>
    if ∀ row ∈ rows, columns ⊆ row.keys.toFinset then
      if ∀ tuple ∈ T.tuples columns drawn (rows.map values), T.valid tuple = true then
        .ok (T.tuples columns drawn (rows.map values))
      else .error .constraintViolation
    else .error .missingColumn

/-- The key under which a unique index has a tuple. -/
def indexed (tuple : Tuple κ ν) : Option (Key ν) :=
  if T.hasUniqueIndex then key cfg.conflictKeys tuple else none

/-- **A tuple is appended** by `COPY`. -/
def append (t : Table κ ν) (tuple : Tuple κ ν) : Except Rejection (Table κ ν) :=
  match T.indexed tuple with
  | none =>
    if T.admits t tuple then .ok { t with keyless := tuple ::ₘ t.keyless }
    else .error .constraintViolation
  | some k =>
    if (t.byKey k).isNone && T.admits t tuple then
      .ok { t with byKey := Function.update t.byKey k (some tuple) }
    else .error .constraintViolation

/-! ## The modes -/

/-- A chunk of `execute_sql_batch`. -/
def sqlChunk (columns : Finset κ) (d : Db κ ν) (rows : List (Row κ ν)) :
    Except Rejection (Db κ ν) :=
  if ∀ row ∈ rows, row.keys.toFinset = columns then T.insert columns d (rows.map values)
  else .error .mismatchedColumns

/-- `execute_sql_batch`. -/
def executeSqlBatch (d : Db κ ν) (batch : PreparedWriteBatch κ ν) : Except Rejection (Db κ ν) :=
  (cfg.iterSqlChunks batch.rows batch.columns).foldlM (T.sqlChunk batch.columns.toFinset) d

/-- `execute_copy_batch`. -/
def executeCopyBatch (d : Db κ ν) (batch : PreparedWriteBatch κ ν) :
    Except Rejection (Db κ ν) := do
  let tuples ← T.copied batch.columns.toFinset d.drawn batch.rows
  let table ← tuples.foldlM T.append d.table
  pure ⟨table, T.draw batch.columns.toFinset batch.rows.length d.drawn⟩

/-- `CREATE TEMP TABLE … (LIKE … INCLUDING DEFAULTS)`. -/
def staging : TargetTable cfg where
  kind := fun c => (T.kind c).map ColumnKind.staged
  notNull := T.notNull
  number := T.number
  hasUniqueIndex := false
  keys_stored := by
    intro c _ hc
    obtain ⟨kind, _, hkind⟩ := Option.map_eq_some_iff.1 hc
    cases kind <;> cases hkind
  keys_ne_nil := by simp

/-- The sequences after the rows of a batch have been staged. -/
def staged (batch : PreparedWriteBatch κ ν) (drawn : κ → ℕ) : κ → ℕ :=
  T.staging.draw batch.columns.toFinset batch.rows.length drawn

/-- `execute_copy_merge_batch`. -/
def executeCopyMergeBatch (d : Db κ ν) (batch : PreparedWriteBatch κ ν) :
    Except Rejection (Db κ ν) := do
  let tuples ← T.staging.copied batch.columns.toFinset d.drawn batch.rows
  T.insert batch.columns.toFinset ⟨d.table, T.staged batch d.drawn⟩ tuples

/-- A batch in one of the modes. -/
def executeBatch : InsertMode → Db κ ν → PreparedWriteBatch κ ν → Except Rejection (Db κ ν)
  | .sql => T.executeSqlBatch
  | .copy => T.executeCopyBatch
  | .copyMerge => T.executeCopyMergeBatch

/-- **A flush** of the rows in the buffer. -/
def flush (mode : InsertMode) (d : Db κ ν) (rows : List (Row κ ν)) : Except Rejection (Db κ ν) := do
  let batches ← (cfg.preparedWriteBatches rows).mapError .writeError
  batches.foldlM (T.executeBatch mode) d

/-! ## One statement, and one for each tuple -/

variable {T}

variable (T) in
/-- A statement for one tuple. -/
def insertOne (updates : Finset κ) (t : Table κ ν) (tuple : Tuple κ ν) :
    Except Rejection (Table κ ν) :=
  T.insertFrom updates [] t [tuple]

variable (T) in
/-- One statement for each tuple. -/
def insertEach (updates : Finset κ) (t : Table κ ν) (tuples : List (Tuple κ ν)) :
    Except Rejection (Table κ ν) :=
  tuples.foldlM (T.insertOne updates) t

/-- The first tuple, and then the others. -/
theorem insertEach_cons_eq_ok_iff {updates : Finset κ} {t u : Table κ ν} {tuple : Tuple κ ν}
    {tuples : List (Tuple κ ν)} :
    T.insertEach updates t (tuple :: tuples) = .ok u
      ↔ ∃ v, T.insertOne updates t tuple = .ok v ∧ T.insertEach updates v tuples = .ok u := by
  unfold insertEach
  rw [List.foldlM_cons]
  exact Fallible.bind_eq_ok_iff

theorem insertEach_append_eq_ok_iff {updates : Finset κ} {t u : Table κ ν}
    {tuples tuples' : List (Tuple κ ν)} :
    T.insertEach updates t (tuples ++ tuples') = .ok u
      ↔ ∃ v, T.insertEach updates t tuples = .ok v ∧ T.insertEach updates v tuples' = .ok u := by
  unfold insertEach
  rw [List.foldlM_append]
  exact Fallible.bind_eq_ok_iff

/-- A row is written where it can be. -/
theorem write_eq_ok_iff {t u : Table κ ν} {p : Proposal κ ν} :
    T.write t p = .ok u
      ↔ (T.valid (merge p ((key cfg.conflictKeys p.tuple).bind t.byKey))
          && T.admits t (merge p ((key cfg.conflictKeys p.tuple).bind t.byKey))) = true
        ∧ upsert cfg.conflictKeys t p = u := by
  unfold write
  dsimp only
  split
  · rename_i h
    simp [h]
  · rename_i h
    simp [h]

/-- **What a statement for one tuple does.** -/
theorem insertOne_eq_ok_iff {updates : Finset κ} {t u : Table κ ν} {tuple : Tuple κ ν} :
    T.insertOne updates t tuple = .ok u
      ↔ T.valid tuple = true
        ∧ if updates = ∅ ∧ ∃ k, key cfg.conflictKeys tuple = some k ∧ (t.byKey k).isSome then u = t
          else T.write t ⟨updates, tuple⟩ = .ok u := by
  have hpure : ∀ x : Except Rejection (Table κ ν),
      (x >>= fun v => Except.ok v) = x := by
    rintro (e | v) <;> rfl
  unfold insertOne insertFrom
  cases hvalid : T.valid tuple with
  | false => simp
  | true =>
    simp only [Bool.true_eq_false, if_false, true_and]
    cases hkey : key cfg.conflictKeys tuple with
    | none =>
      simp only [reduceCtorEq, false_and, exists_false, and_false, if_false]
      exact iff_of_eq (congrArg (· = Except.ok u) (hpure _))
    | some k =>
      dsimp only
      cases hrow : t.byKey k with
      | none =>
        have hnot : ¬ (updates = ∅ ∧ ∃ k', some k = some k' ∧ (t.byKey k').isSome = true) := by
          rintro ⟨_, k', hk, hsome⟩
          rw [← Option.some.inj hk, hrow] at hsome
          cases hsome
        rw [if_neg hnot]
        exact iff_of_eq (congrArg (· = Except.ok u) (hpure _))
      | some old =>
        rw [Option.isNone_some, if_neg Bool.false_ne_true]
        by_cases hupdates : updates = ∅
        · rw [if_pos hupdates, if_pos ⟨hupdates, k, rfl, by rw [hrow]; rfl⟩]
          simp [insertFrom, eq_comm]
        · rw [if_neg hupdates, if_neg (by simp), if_neg (fun h => hupdates h.1)]
          exact iff_of_eq (congrArg (· = Except.ok u) (hpure _))

/-- Rows stay, and a tuple with a key makes one. -/
theorem isSome_of_insertOne {updates : Finset κ} {t u : Table κ ν} {tuple : Tuple κ ν} {k : Key ν}
    (h : T.insertOne updates t tuple = .ok u)
    (hk : (t.byKey k).isSome ∨ key cfg.conflictKeys tuple = some k) : (u.byKey k).isSome := by
  have hone := (insertOne_eq_ok_iff.1 h).2
  split at hone
  · rename_i hconflict
    obtain ⟨_, k', hkey, hsome⟩ := hconflict
    rw [hone]
    rcases hk with hk | hk
    · exact hk
    · rwa [← Option.some.inj (hkey.symm.trans hk)]
  · rw [← (write_eq_ok_iff.1 hone).2]
    exact isSome_upsert hk

/-- A statement with nothing to set does not ask what it has written. -/
theorem insertFrom_empty :
    ∀ (tuples : List (Tuple κ ν)) (touched touched' : List (Key ν)) (t : Table κ ν),
      T.insertFrom ∅ touched t tuples = T.insertFrom ∅ touched' t tuples
  | [], _, _, _ => rfl
  | tuple :: tuples, touched, touched', t => by
    have ih := insertFrom_empty tuples
    unfold insertFrom
    split
    · rfl
    · split
      · exact congrArg _ (funext (fun v => ih touched touched' v))
      · rename_i k _
        split
        · exact congrArg _ (funext (fun v => ih (k :: touched) (k :: touched') v))
        · rw [if_pos rfl, if_pos rfl]
          exact ih touched touched' t

/-- **A statement, tuple by tuple**: what one for the first of them does, if the row is
not one that it has written itself. -/
theorem insertFrom_cons_eq_ok_iff {updates : Finset κ} {touched : List (Key ν)}
    {t u : Table κ ν} {tuple : Tuple κ ν} {tuples : List (Tuple κ ν)}
    (htouched : ∀ k ∈ touched, (t.byKey k).isSome) :
    T.insertFrom updates touched t (tuple :: tuples) = .ok u
      ↔ ∃ v, T.insertOne updates t tuple = .ok v
        ∧ (updates = ∅ ∨ ∀ k ∈ key cfg.conflictKeys tuple, k ∉ touched)
        ∧ T.insertFrom updates ((key cfg.conflictKeys tuple).toList ++ touched) v tuples
          = .ok u := by
  rw [insertFrom]
  simp only [insertOne_eq_ok_iff]
  cases hvalid : T.valid tuple with
  | false => simp
  | true =>
    cases hkey : key cfg.conflictKeys tuple with
    | none => simp [Fallible.bind_eq_ok_iff]
    | some k =>
      cases hrow : t.byKey k with
      | none =>
        have hk : k ∉ touched := fun hk => by simpa [hrow] using htouched k hk
        simp [Fallible.bind_eq_ok_iff, hrow, hk]
      | some old =>
        by_cases hupdates : updates = ∅
        · subst hupdates
          simp [hrow, insertFrom_empty tuples (k :: touched) touched t]
        · by_cases hk : k ∈ touched
          · simp [hrow, hupdates, hk]
          · simp [Fallible.bind_eq_ok_iff, hrow, hupdates, hk]

/-- **A statement does what one statement for each of its tuples does**, unless it sets columns
and proposes a key twice; then it fails. By induction on the tuples; the rows that have been
written are there. -/
theorem insertFrom_eq_ok_iff {updates : Finset κ} :
    ∀ (tuples : List (Tuple κ ν)) (touched : List (Key ν)) (t u : Table κ ν),
      (∀ k ∈ touched, (t.byKey k).isSome) →
      (T.insertFrom updates touched t tuples = .ok u
        ↔ T.insertEach updates t tuples = .ok u
          ∧ (updates = ∅ ∨ Clear touched (keysOf cfg.conflictKeys tuples)))
  | [], touched, t, u, _ => by
    have hclear : Clear touched (keysOf cfg.conflictKeys ([] : List (Tuple κ ν))) :=
      ⟨List.nodup_nil, by simp [keysOf]⟩
    exact (and_iff_left (.inr hclear)).symm
  | tuple :: tuples, touched, t, u, htouched => by
    have hclear : Clear touched (keysOf cfg.conflictKeys (tuple :: tuples))
        ↔ (∀ k ∈ key cfg.conflictKeys tuple, k ∉ touched)
          ∧ Clear ((key cfg.conflictKeys tuple).toList ++ touched)
            (keysOf cfg.conflictKeys tuples) := by
      unfold keysOf
      cases hkey : key cfg.conflictKeys tuple with
      | none =>
        rw [List.filterMap_cons_none hkey]
        simp
      | some k =>
        rw [List.filterMap_cons_some hkey, clear_cons]
        simp
    have ih : ∀ v, T.insertOne updates t tuple = .ok v →
        (T.insertFrom updates ((key cfg.conflictKeys tuple).toList ++ touched) v tuples = .ok u
          ↔ T.insertEach updates v tuples = .ok u
            ∧ (updates = ∅ ∨ Clear ((key cfg.conflictKeys tuple).toList ++ touched)
              (keysOf cfg.conflictKeys tuples))) := by
      intro v hv
      refine insertFrom_eq_ok_iff tuples _ v u (fun k hk => ?_)
      rcases List.mem_append.1 hk with hk | hk
      · exact isSome_of_insertOne hv (.inr (Option.mem_toList.1 hk))
      · exact isSome_of_insertOne hv (.inl (htouched k hk))
    rw [insertFrom_cons_eq_ok_iff htouched, insertEach_cons_eq_ok_iff, hclear]
    constructor
    · rintro ⟨v, hv, hk, h⟩
      obtain ⟨heach, hrest⟩ := (ih v hv).1 h
      refine ⟨⟨v, hv, heach⟩, ?_⟩
      rcases hk with hk | hk
      · exact .inl hk
      · exact hrest.imp_right (fun hrest => ⟨hk, hrest⟩)
    · rintro ⟨⟨v, hv, heach⟩, hboth⟩
      exact ⟨v, hv, hboth.imp_right And.left, (ih v hv).2 ⟨heach, hboth.imp_right And.right⟩⟩

/-- One statement, from its beginning. -/
theorem insertFrom_nil_eq_ok_iff {updates : Finset κ} {t u : Table κ ν}
    {tuples : List (Tuple κ ν)} :
    T.insertFrom updates [] t tuples = .ok u
      ↔ T.insertEach updates t tuples = .ok u
        ∧ (updates = ∅ ∨ (keysOf cfg.conflictKeys tuples).Nodup) := by
  rw [insertFrom_eq_ok_iff tuples [] t u (by simp)]
  simp [Clear]

/-! ## A batch with `sql` -/

/-- **A statement is accepted** just if its columns may be set, each of its tuples may be inserted,
and no two of them have one key where conflicts are resolved. -/
theorem insert_eq_ok_iff {columns : Finset κ} {d d' : Db κ ν} {rows : List (Tuple κ ν)} :
    T.insert columns d rows = .ok d'
      ↔ T.insertError columns = none
        ∧ T.insertEach (cfg.updateSet columns) d.table (T.tuples columns d.drawn rows)
          = .ok d'.table
        ∧ (cfg.updateSet columns = ∅
          ∨ (keysOf cfg.conflictKeys (T.tuples columns d.drawn rows)).Nodup)
        ∧ d'.drawn = T.draw columns rows.length d.drawn := by
  unfold insert
  cases T.insertError columns with
  | some e => simp
  | none =>
    simp only [Fallible.map_eq_ok_iff, insertFrom_nil_eq_ok_iff, true_and]
    constructor
    · rintro ⟨table, ⟨heach, hclear⟩, rfl⟩
      exact ⟨heach, hclear, rfl⟩
    · rintro ⟨heach, hclear, hdrawn⟩
      exact ⟨d'.table, ⟨heach, hclear⟩, Db.ext rfl hdrawn.symm⟩

/-- The chunks of a batch that repeats no key, or sets nothing. -/
theorem foldlM_sqlChunk_eq_ok_iff {columns : Finset κ} :
    ∀ (chunks : List (List (Row κ ν))) (d d' : Db κ ν),
      (cfg.updateSet columns = ∅ ∨ (keysOf cfg.conflictKeys
        (T.tuples columns d.drawn (chunks.flatten.map values))).Nodup) →
      (chunks.foldlM (T.sqlChunk columns) d = .ok d'
        ↔ (∀ chunk ∈ chunks, T.insertError columns = none
            ∧ ∀ row ∈ chunk, row.keys.toFinset = columns)
          ∧ T.insertEach (cfg.updateSet columns) d.table
            (T.tuples columns d.drawn (chunks.flatten.map values)) = .ok d'.table
          ∧ d'.drawn = T.draw columns chunks.flatten.length d.drawn)
  | [], d, d', _ => by
    simp only [List.foldlM_nil, List.flatten_nil, List.map_nil, tuples, insertEach,
      List.length_nil, draw_zero]
    constructor
    · intro h
      obtain rfl : d = d' := Except.ok.inj h
      exact ⟨by simp, rfl, rfl⟩
    · rintro ⟨_, htable, hdrawn⟩
      exact congrArg Except.ok (Db.ext (Except.ok.inj htable) hdrawn.symm)
  | chunk :: chunks, d, d', hclear => by
    rw [List.flatten_cons, List.map_append, tuples_append, List.length_map] at hclear ⊢
    rw [keysOf, List.filterMap_append] at hclear
    have hfirst : cfg.updateSet columns = ∅ ∨ (keysOf cfg.conflictKeys
        (T.tuples columns d.drawn (chunk.map values))).Nodup :=
      hclear.imp_right List.Nodup.of_append_left
    have ih : ∀ v : Db κ ν, v.drawn = T.draw columns chunk.length d.drawn → _ := fun v hv =>
      foldlM_sqlChunk_eq_ok_iff chunks v d' (by
        rw [hv]
        exact hclear.imp_right List.Nodup.of_append_right)
    rw [List.foldlM_cons, Fallible.bind_eq_ok_iff, insertEach_append_eq_ok_iff,
      List.forall_mem_cons, List.length_append, ← draw_draw]
    constructor
    · rintro ⟨v, hv, hrest⟩
      unfold sqlChunk at hv
      split at hv
      · rename_i hrows
        obtain ⟨herror, heach, _, hdrawn⟩ := insert_eq_ok_iff.1 hv
        rw [List.length_map] at hdrawn
        obtain ⟨hchunks, heach', hdrawn'⟩ := (ih v hdrawn).1 hrest
        rw [hdrawn] at heach' hdrawn'
        exact ⟨⟨⟨herror, hrows⟩, hchunks⟩, ⟨v.table, heach, heach'⟩, hdrawn'⟩
      · cases hv
    · rintro ⟨⟨⟨herror, hrows⟩, hchunks⟩, ⟨table, heach, heach'⟩, hdrawn⟩
      refine ⟨⟨table, T.draw columns chunk.length d.drawn⟩, ?_,
        (ih _ rfl).2 ⟨hchunks, heach', hdrawn⟩⟩
      unfold sqlChunk
      rw [if_pos hrows, insert_eq_ok_iff, List.length_map]
      exact ⟨herror, heach, hfirst, rfl⟩

/-- **A batch that repeats no key**, or sets nothing: one statement for each row. -/
theorem executeSqlBatch_eq_ok_iff {d d' : Db κ ν} {batch : PreparedWriteBatch κ ν}
    (hne : batch.rows ≠ [])
    (hclear : cfg.updateSet batch.columns.toFinset = ∅ ∨ (keysOf cfg.conflictKeys
      (T.tuples batch.columns.toFinset d.drawn (batch.rows.map values))).Nodup) :
    T.executeSqlBatch d batch = .ok d'
      ↔ T.insertError batch.columns.toFinset = none
        ∧ (∀ row ∈ batch.rows, row.keys.toFinset = batch.columns.toFinset)
        ∧ T.insertEach (cfg.updateSet batch.columns.toFinset) d.table
          (T.tuples batch.columns.toFinset d.drawn (batch.rows.map values)) = .ok d'.table
        ∧ d'.drawn = T.draw batch.columns.toFinset batch.rows.length d.drawn := by
  have hflatten : (cfg.iterSqlChunks batch.rows batch.columns).flatten = batch.rows :=
    WriteConfig.flatten_iterSqlChunks batch.rows batch.columns
  unfold executeSqlBatch
  rw [foldlM_sqlChunk_eq_ok_iff _ d d' (by rwa [hflatten]), hflatten]
  constructor
  · rintro ⟨hchunks, h⟩
    obtain ⟨row, hrow⟩ := List.exists_mem_of_ne_nil _ hne
    rw [← hflatten] at hrow
    obtain ⟨chunk, hchunk, _⟩ := List.mem_flatten.1 hrow
    refine ⟨(hchunks chunk hchunk).1, fun row hrow => ?_, h⟩
    rw [← hflatten] at hrow
    obtain ⟨chunk, hchunk, hrow⟩ := List.mem_flatten.1 hrow
    exact (hchunks chunk hchunk).2 row hrow
  · rintro ⟨herror, hrows, h⟩
    refine ⟨fun chunk hchunk => ⟨herror, fun row hrow => hrows row ?_⟩, h⟩
    rw [← hflatten]
    exact List.mem_flatten.2 ⟨chunk, hchunk, hrow⟩

/-! ## A table with defaults alone -/

variable (T) in
/-- A table that requires nothing of its rows, and has no column but those with a default. -/
structure Plain : Prop where
  kind : ∀ c, T.kind c = some (.plain (cfg.default c))
  notNull : T.notNull = ∅
  hasUniqueIndex : T.hasUniqueIndex = true
  check : ∀ tuple, T.check tuple = true
  admits : ∀ t row, T.admits t row = true

omit [DecidableEq κ] in
/-- A plain target accepts every tuple. -/
theorem Plain.valid (h : T.Plain) (tuple : Tuple κ ν) : T.valid tuple = true := by
  simp [TargetTable.valid, h.notNull, h.check]

omit [DecidableEq ν] in
theorem Plain.draw (h : T.Plain) (columns : Finset κ) (count : ℕ) (drawn : κ → ℕ) :
    T.draw columns count drawn = drawn := by
  funext c
  simp [TargetTable.draw, drawsNumber, h.kind]

omit [DecidableEq ν] in
theorem Plain.tuples (h : T.Plain) (columns : Finset κ) (rows : List (Row κ ν))
    (drawn : κ → ℕ) :
    T.tuples columns drawn (rows.map values) = rows.map (cfg.tupleOf columns) := by
  induction rows with
  | nil => rfl
  | cons row rows ih =>
    have hfill : T.fill columns drawn (values row) = cfg.tupleOf columns row := by
      funext c
      simp only [fill, h.kind]
      rfl
    rw [List.map_cons, TargetTable.tuples, h.draw, ih, hfill, List.map_cons]

/-- **An insert into a plain target** is an upsert. -/
theorem Plain.insertOne_eq_ok_iff (h : T.Plain) {updates : Finset κ} {t u : Table κ ν}
    {tuple : Tuple κ ν} :
    T.insertOne updates t tuple = .ok u ↔ upsert cfg.conflictKeys t ⟨updates, tuple⟩ = u := by
  rw [TargetTable.insertOne_eq_ok_iff, h.valid, eq_self_iff_true, true_and]
  split
  · rename_i hconflict
    obtain ⟨rfl, k, hkey, hsome⟩ := hconflict
    rw [upsert_of_updates_empty hkey (by simpa using hsome), eq_comm]
  · simp [write_eq_ok_iff, h.valid, h.admits]

theorem Plain.insertEach_eq_ok_iff (h : T.Plain) {updates : Finset κ} {t u : Table κ ν}
    {tuples : List (Tuple κ ν)} :
    T.insertEach updates t tuples = .ok u
      ↔ upserts cfg.conflictKeys t (proposals updates tuples) = u := by
  induction tuples generalizing t with
  | nil =>
    show Except.ok t = Except.ok u ↔ t = u
    exact iff_of_eq (Except.ok.injEq _ _)
  | cons tuple tuples ih =>
    rw [insertEach_cons_eq_ok_iff]
    simp only [h.insertOne_eq_ok_iff, ih, exists_eq_left']
    rfl

theorem Plain.insert_eq_ok_iff (h : T.Plain) {columns : Finset κ} {d d' : Db κ ν}
    {rows : List (Row κ ν)} :
    T.insert columns d (rows.map values) = .ok d'
      ↔ cfg.executeStatement columns d.table rows = .ok d'.table ∧ d'.drawn = d.drawn := by
  have herror : T.insertError columns = none ↔ columns ≠ ∅ ∧ cfg.conflictKeys ≠ [] := by
    unfold insertError
    simp [h.kind, h.hasUniqueIndex, ColumnKind.isAlways, not_or]
  have hproposals : proposals (cfg.updateSet columns) (rows.map (cfg.tupleOf columns))
      = rows.map (cfg.rowProposal columns) := List.map_map
  rw [TargetTable.insert_eq_ok_iff, WriteConfig.executeStatement_eq_ok_iff, herror, h.tuples,
    h.draw, h.insertEach_eq_ok_iff, hproposals, WriteConfig.Executable, eq_comm (b := d'.table)]
  constructor
  · rintro ⟨⟨hcolumns, hkeys⟩, htable, hclear, hdrawn⟩
    exact ⟨⟨⟨hcolumns, hkeys, hclear⟩, htable⟩, hdrawn⟩
  · rintro ⟨⟨⟨hcolumns, hkeys, hclear⟩, htable⟩, hdrawn⟩
    exact ⟨⟨hcolumns, hkeys⟩, htable, hclear, hdrawn⟩

/-- **On a plain table** a batch with `sql` does what it does in the plan of a flush. -/
theorem Plain.executeSqlBatch_eq_ok_iff (h : T.Plain) (hmode : cfg.copyMerge = false)
    {batch : PreparedWriteBatch κ ν} {d d' : Db κ ν} :
    T.executeSqlBatch d batch = .ok d'
      ↔ cfg.executeBatch d.table batch = .ok d'.table ∧ d'.drawn = d.drawn := by
  have hchunk : ∀ (rows : List (Row κ ν)) (d d' : Db κ ν),
      T.sqlChunk batch.columns.toFinset d rows = .ok d'
        ↔ cfg.executeChunk batch.columns.toFinset d.table rows = .ok d'.table
          ∧ d'.drawn = d.drawn := by
    intro rows d d'
    unfold sqlChunk WriteConfig.executeChunk
    split
    · exact h.insert_eq_ok_iff
    · simp
  unfold executeSqlBatch WriteConfig.executeBatch
  rw [hmode, if_neg Bool.false_ne_true]
  induction cfg.iterSqlChunks batch.rows batch.columns generalizing d with
  | nil =>
    show Except.ok d = .ok d' ↔ Except.ok d.table = .ok d'.table ∧ d'.drawn = d.drawn
    rw [Except.ok.injEq, Except.ok.injEq, Db.ext_iff, eq_comm (a := d.drawn)]
  | cons chunk chunks ih =>
    rw [List.foldlM_cons, List.foldlM_cons, Fallible.bind_eq_ok_iff, Fallible.bind_eq_ok_iff]
    constructor
    · rintro ⟨v, hv, hrest⟩
      obtain ⟨htable, hdrawn⟩ := (hchunk chunk d v).1 hv
      obtain ⟨htables, hdrawns⟩ := ih.1 hrest
      exact ⟨⟨v.table, htable, htables⟩, hdrawns.trans hdrawn⟩
    · rintro ⟨⟨table, htable, htables⟩, hdrawn⟩
      exact ⟨⟨table, d.drawn⟩, (hchunk chunk d _).2 ⟨htable, rfl⟩, ih.2 ⟨htables, hdrawn⟩⟩

/-! ## A batch with `copy_merge` -/

variable (T) in
/-- **What a staging table lacks** is NULL in it where it is left out: there is nothing of
the kind that must not be. -/
def Stageable (columns : Finset κ) : Prop :=
  ∀ c ∈ T.notNull, c ∉ columns → T.kind c ≠ some .generated ∧ ∀ always,
    T.kind c ≠ some (.identity always)

/-- **A copy is accepted** just if its columns may be, every row has them and every tuple is valid.
-/
theorem copied_eq_ok_iff {columns : Finset κ} {drawn : κ → ℕ} {rows : List (Row κ ν)}
    {tuples : List (Tuple κ ν)} :
    T.copied columns drawn rows = .ok tuples
      ↔ T.copyError columns = none
        ∧ (∀ row ∈ rows, columns ⊆ row.keys.toFinset)
        ∧ (∀ tuple ∈ T.tuples columns drawn (rows.map values), T.valid tuple = true)
        ∧ tuples = T.tuples columns drawn (rows.map values) := by
  unfold copied
  cases T.copyError columns with
  | some e => simp
  | none =>
    dsimp only
    split
    · rename_i hrows
      split
      · rename_i hvalid
        simp only [Except.ok.injEq, true_and]
        exact ⟨fun h => ⟨hrows, hvalid, h.symm⟩, fun h => h.2.2.symm⟩
      · rename_i hvalid
        exact iff_of_false (by simp) (fun h => hvalid h.2.2.1)
    · rename_i hrows
      exact iff_of_false (by simp) (fun h => hrows h.2.1)

omit [DecidableEq κ] in
/-- A tuple is valid if it has a value for each column that needs one and passes the check. -/
theorem valid_iff {tuple : Tuple κ ν} :
    T.valid tuple = true
      ↔ (∀ c ∈ T.notNull, T.kind c = some .generated ∨ tuple c ≠ none) ∧ T.check tuple = true := by
  rw [valid, Bool.and_eq_true, decide_eq_true_eq]

omit [DecidableEq ν] in
/-- What an `INSERT` may list. -/
theorem insertError_eq_none_iff {columns : Finset κ} :
    T.insertError columns = none
      ↔ (columns ≠ ∅ ∧ cfg.conflictKeys ≠ []) ∧ (∀ c ∈ columns, T.kind c ≠ none)
        ∧ (∀ c ∈ columns, (T.kind c).any ColumnKind.isAlways = false)
        ∧ T.hasUniqueIndex = true := by
  unfold insertError
  split
  · rename_i h
    exact iff_of_false (by simp) (fun h' => h.elim h'.1.1 h'.1.2)
  · rename_i h
    rw [not_or] at h
    split
    · rename_i h'
      obtain ⟨c, hc, hkind⟩ := h'
      exact iff_of_false (by simp) (fun h'' => h''.2.1 c hc hkind)
    · rename_i hkinds
      split
      · rename_i h'
        obtain ⟨c, hc, halways⟩ := h'
        exact iff_of_false (by simp) (fun h'' => by simp [h''.2.2.1 c hc] at halways)
      · rename_i halways
        split
        · rename_i hindex
          exact iff_of_false (by simp) (fun h'' => by simp [h''.2.2.2] at hindex)
        · rename_i hindex
          refine iff_of_true rfl ⟨h, fun c hc hkind => hkinds ⟨c, hc, hkind⟩, fun c hc => ?_, ?_⟩
          · exact Bool.eq_false_iff.2 (fun h => halways ⟨c, hc, h⟩)
          · exact Bool.not_eq_false _ |>.mp hindex

/-- What a `COPY` may list. -/
theorem copyError_eq_none_iff {columns : Finset κ} :
    T.copyError columns = none
      ↔ columns ≠ ∅ ∧ (∀ c ∈ columns, T.kind c ≠ none)
        ∧ ∀ c ∈ columns, T.kind c ≠ some .generated := by
  unfold copyError
  split
  · rename_i h
    exact iff_of_false (by simp) (fun h' => h'.1 h)
  · rename_i h
    split
    · rename_i h'
      obtain ⟨c, hc, hkind⟩ := h'
      exact iff_of_false (by simp) (fun h'' => h''.2.1 c hc hkind)
    · rename_i hkinds
      split
      · rename_i h'
        obtain ⟨c, hc, hkind⟩ := h'
        exact iff_of_false (by simp) (fun h'' => h''.2.2 c hc hkind)
      · rename_i hgenerated
        exact iff_of_true rfl ⟨h, fun c hc hkind => hkinds ⟨c, hc, hkind⟩,
          fun c hc hkind => hgenerated ⟨c, hc, hkind⟩⟩

omit [DecidableEq κ] [DecidableEq ν] in
/-- What a column of the staging table is. -/
theorem staging_kind (c : κ) : T.staging.kind c = (T.kind c).map ColumnKind.staged := rfl

omit [DecidableEq κ] [DecidableEq ν] in
theorem staging_kind_ne_generated (c : κ) : T.staging.kind c ≠ some .generated := by
  intro h
  obtain ⟨kind, _, hkind⟩ := Option.map_eq_some_iff.1 h
  cases kind <;> cases hkind

/-- **A staging table takes what can be inserted**, where it lacks nothing. -/
theorem staging_valid {columns : Finset κ} {drawn drawn' : κ → ℕ} {x : Tuple κ ν}
    (hstageable : T.Stageable columns)
    (hlisted : ∀ c ∈ columns, (T.kind c).any ColumnKind.isAlways = false)
    (hvalid : T.valid (T.fill columns drawn x) = true) :
    T.staging.valid (T.staging.fill columns drawn' x) = true := by
  rw [valid_iff] at hvalid ⊢
  refine ⟨fun c hc => .inr ?_, rfl⟩
  have htarget := hvalid.1 c hc
  by_cases hcolumn : c ∈ columns
  · have hlisted := hlisted c hcolumn
    simp only [fill, if_pos hcolumn] at htarget ⊢
    refine htarget.resolve_left (fun hgenerated => ?_)
    rw [hgenerated] at hlisted
    exact absurd hlisted (by simp [ColumnKind.isAlways])
  · obtain ⟨hgenerated, hidentity⟩ := hstageable c hc hcolumn
    have htarget := htarget.resolve_left hgenerated
    simp only [fill, if_neg hcolumn, staging_kind] at htarget ⊢
    cases hkind : T.kind c with
    | none =>
      rw [hkind] at htarget
      exact absurd rfl htarget
    | some kind =>
      rw [hkind] at htarget hgenerated hidentity
      cases kind with
      | plain default => exact htarget
      | serial => exact Option.some_ne_none _
      | identity always => exact absurd rfl (hidentity always)
      | generated => exact absurd rfl hgenerated

/-- What it takes, it lacks nothing for. -/
theorem stageable_of_valid {columns : Finset κ} {drawn : κ → ℕ} {x : Tuple κ ν}
    (h : T.staging.valid (T.staging.fill columns drawn x) = true) : T.Stageable columns := by
  intro c hc hcolumn
  have hne := ((valid_iff.1 h).1 c hc).resolve_left (staging_kind_ne_generated c)
  simp only [fill, if_neg hcolumn, staging_kind] at hne
  constructor
  · intro hkind
    rw [hkind] at hne
    exact hne rfl
  · intro always hkind
    rw [hkind] at hne
    exact hne rfl

/-- The first thing a statement asks of a tuple. -/
theorem valid_of_insertEach {updates : Finset κ} {tuples : List (Tuple κ ν)} {t u : Table κ ν}
    (h : T.insertEach updates t tuples = .ok u) : ∀ tuple ∈ tuples, T.valid tuple = true := by
  induction tuples generalizing t with
  | nil => simp
  | cons tuple tuples ih =>
    obtain ⟨v, hv, hrest⟩ := insertEach_cons_eq_ok_iff.1 h
    exact List.forall_mem_cons.2 ⟨(insertOne_eq_ok_iff.1 hv).1, ih hrest⟩

variable (T) in
/-- What a batch with `copy_merge` needs: that it can be staged, and that it sets nothing or
repeats no key. -/
def Mergeable (drawn : κ → ℕ) (batch : PreparedWriteBatch κ ν) : Prop :=
  T.Stageable batch.columns.toFinset
    ∧ (cfg.updateSet batch.columns.toFinset = ∅ ∨ (keysOf cfg.conflictKeys
      (T.tuples batch.columns.toFinset (T.staged batch drawn) (batch.rows.map values))).Nodup)

variable (T) in
/-- A batch with `sql` once the numbers have been drawn that staging draws. -/
def executeSqlBatchStaged (d : Db κ ν) (batch : PreparedWriteBatch κ ν) :
    Except Rejection (Db κ ν) :=
  T.executeSqlBatch ⟨d.table, T.staged batch d.drawn⟩ batch

/-- **A batch with `copy_merge`.** -/
theorem executeCopyMergeBatch_eq_ok_iff {d d' : Db κ ν} {batch : PreparedWriteBatch κ ν}
    (hne : batch.rows ≠ [])
    (hextra : ∀ row ∈ batch.rows, row.keys.toFinset ⊆ batch.columns.toFinset) :
    T.executeCopyMergeBatch d batch = .ok d'
      ↔ T.executeSqlBatchStaged d batch = .ok d' ∧ T.Mergeable d.drawn batch := by
  have hcopied : T.executeCopyMergeBatch d batch = .ok d'
      ↔ ∃ tuples, T.staging.copied batch.columns.toFinset d.drawn batch.rows = .ok tuples
        ∧ T.insert batch.columns.toFinset ⟨d.table, T.staged batch d.drawn⟩ tuples = .ok d' :=
    Fallible.bind_eq_ok_iff
  have hlength : (T.staging.tuples batch.columns.toFinset d.drawn
      (batch.rows.map values)).length = batch.rows.length := by
    rw [length_tuples, List.length_map]
  obtain ⟨row, hrow⟩ := List.exists_mem_of_ne_nil _ hne
  rw [hcopied]
  constructor
  · rintro ⟨tuples, hstaged, hinsert⟩
    obtain ⟨_, hcolumns, hvalid, rfl⟩ := copied_eq_ok_iff.1 hstaged
    obtain ⟨herror, heach, hclear, hdrawn⟩ := insert_eq_ok_iff.1 hinsert
    rw [tuples_tuples] at heach hclear
    rw [hlength] at hdrawn
    obtain ⟨drawn, hmem⟩ := exists_fill_mem_tuples T.staging batch.columns.toFinset
      (List.mem_map_of_mem (f := values) hrow) d.drawn
    refine ⟨?_, stageable_of_valid (hvalid _ hmem), hclear⟩
    exact (executeSqlBatch_eq_ok_iff (d := ⟨d.table, T.staged batch d.drawn⟩) hne hclear).2
      ⟨herror, fun row hrow => (hextra row hrow).antisymm (hcolumns row hrow), heach, hdrawn⟩
  · rintro ⟨hsql, hstageable, hclear⟩
    obtain ⟨herror, hrows, heach, hdrawn⟩ :=
      (executeSqlBatch_eq_ok_iff (d := ⟨d.table, T.staged batch d.drawn⟩) hne hclear).1 hsql
    obtain ⟨⟨hcolumns, hkeys⟩, hkinds, halways, hindex⟩ := insertError_eq_none_iff.1 herror
    refine ⟨_, copied_eq_ok_iff.2 ⟨copyError_eq_none_iff.2 ⟨hcolumns, fun c hc hkind => ?_,
      fun c _ => staging_kind_ne_generated c⟩, fun row hrow => (hrows row hrow).symm.subset,
      fun tuple htuple => ?_, rfl⟩, insert_eq_ok_iff.2 ?_⟩
    · exact hkinds c hc (Option.map_eq_none_iff.1 hkind)
    · obtain ⟨x, hx, drawn, rfl⟩ := exists_of_mem_tuples htuple
      obtain ⟨drawn', hmem⟩ := exists_fill_mem_tuples T batch.columns.toFinset hx
        (T.staged batch d.drawn)
      exact staging_valid hstageable halways (valid_of_insertEach heach _ hmem)
    · rw [tuples_tuples, hlength]
      exact ⟨herror, heach, hclear, hdrawn⟩

/-! ## A batch with `copy` -/

variable (cfg) in
/-- **No key is there already**, and none comes twice. -/
def Fresh (t : Table κ ν) (tuples : List (Tuple κ ν)) : Prop :=
  (∀ k ∈ keysOf cfg.conflictKeys tuples, t.byKey k = none)
    ∧ (keysOf cfg.conflictKeys tuples).Nodup

/-- The keys that are there after a statement for a tuple. -/
theorem byKey_insertOne {updates : Finset κ} {t u : Table κ ν} {tuple : Tuple κ ν}
    (h : T.insertOne updates t tuple = .ok u) (k : Key ν) :
    u.byKey k = none ↔ t.byKey k = none ∧ key cfg.conflictKeys tuple ≠ some k := by
  constructor
  · intro hu
    constructor
    · by_contra ht
      have hsome := isSome_of_insertOne h (k := k) (.inl (Option.isSome_iff_ne_none.2 ht))
      rw [hu] at hsome
      cases hsome
    · intro hkey
      have hsome := isSome_of_insertOne h (.inr hkey)
      rw [hu] at hsome
      cases hsome
  · rintro ⟨ht, hkey⟩
    have hone := (insertOne_eq_ok_iff.1 h).2
    split at hone
    · rw [hone]
      exact ht
    · rw [← (write_eq_ok_iff.1 hone).2]
      cases hkey' : key cfg.conflictKeys tuple with
      | none =>
        rw [upsert_of_key_none (p := ⟨updates, tuple⟩) hkey']
        exact ht
      | some k' =>
        rw [upsert_of_key_some (p := ⟨updates, tuple⟩) hkey']
        have hne : k ≠ k' := by
          rintro rfl
          exact hkey hkey'
        simpa [Function.update_of_ne hne] using ht

/-- **A key is free after inserts** just if it was and none of them has it. -/
theorem byKey_insertEach {updates : Finset κ} {t u : Table κ ν} {tuples : List (Tuple κ ν)}
    (h : T.insertEach updates t tuples = .ok u) (k : Key ν) :
    u.byKey k = none ↔ t.byKey k = none ∧ k ∉ keysOf cfg.conflictKeys tuples := by
  induction tuples generalizing t with
  | nil =>
    obtain rfl : t = u := Except.ok.inj h
    simp [keysOf]
  | cons tuple tuples ih =>
    obtain ⟨v, hv, hrest⟩ := insertEach_cons_eq_ok_iff.1 h
    rw [ih hrest, byKey_insertOne hv]
    cases hkey : key cfg.conflictKeys tuple with
    | none => simp [keysOf, hkey]
    | some k' =>
      simp only [keysOf, List.filterMap_cons_some hkey, List.mem_cons, not_or, ne_eq,
        Option.some.injEq, and_assoc, eq_comm]

theorem fresh_append {updates : Finset κ} {t u : Table κ ν} {tuples tuples' : List (Tuple κ ν)}
    (h : T.insertEach updates t tuples = .ok u) :
    Fresh cfg t (tuples ++ tuples') ↔ Fresh cfg t tuples ∧ Fresh cfg u tuples' := by
  unfold Fresh keysOf
  rw [List.filterMap_append, List.nodup_append']
  simp only [byKey_insertEach h, List.forall_mem_append]
  constructor
  · rintro ⟨⟨hthere, hthere'⟩, hnodup, hnodup', hdisjoint⟩
    exact ⟨⟨hthere, hnodup⟩, fun k hk => ⟨hthere' k hk, fun hk' => hdisjoint hk' hk⟩, hnodup'⟩
  · rintro ⟨⟨hthere, hnodup⟩, hthere', hnodup'⟩
    exact ⟨⟨hthere, fun k hk => (hthere' k hk).1⟩, hnodup, hnodup',
      fun k hk hk' => (hthere' k hk').2 hk⟩

/-- **A tuple is appended** if it can be inserted and its key is not there. -/
theorem append_eq_ok_iff (hindex : T.hasUniqueIndex = true) {t u : Table κ ν}
    {tuple : Tuple κ ν} (hvalid : T.valid tuple = true) :
    T.append t tuple = .ok u ↔ T.insertOne ∅ t tuple = .ok u ∧ Fresh cfg t [tuple] := by
  unfold append indexed Fresh keysOf
  rw [if_pos hindex, insertOne_eq_ok_iff]
  cases hkey : key cfg.conflictKeys tuple with
  | none =>
    have hwrite : T.write t ⟨∅, tuple⟩ = .ok u
        ↔ T.admits t tuple = true ∧ { t with keyless := tuple ::ₘ t.keyless } = u := by
      rw [write_eq_ok_iff, upsert_of_key_none (p := ⟨∅, tuple⟩) hkey]
      simp [hkey, merge, hvalid]
    dsimp only
    split
    · rename_i hadmits
      simp [hvalid, hwrite, hadmits, hkey]
    · rename_i hadmits
      simp [hwrite, hadmits]
  | some k =>
    cases hrow : t.byKey k with
    | some old => simp [hrow, hkey]
    | none =>
      have hwrite : T.write t ⟨∅, tuple⟩ = .ok u ↔ T.admits t tuple = true
          ∧ { t with byKey := Function.update t.byKey k (some tuple) } = u := by
        rw [write_eq_ok_iff, upsert_of_key_some (p := ⟨∅, tuple⟩) hkey]
        simp [hkey, hrow, merge, hvalid]
      dsimp only
      split
      · rename_i hadmits
        rw [hrow] at hadmits
        simp_all
      · rename_i hadmits
        rw [hrow] at hadmits
        simp_all

/-- Tuples are appended if they can be inserted and no key is there. -/
theorem foldlM_append_eq_ok_iff (hindex : T.hasUniqueIndex = true) {tuples : List (Tuple κ ν)}
    {t u : Table κ ν} (hvalid : ∀ tuple ∈ tuples, T.valid tuple = true) :
    tuples.foldlM T.append t = .ok u ↔ T.insertEach ∅ t tuples = .ok u ∧ Fresh cfg t tuples := by
  induction tuples generalizing t with
  | nil => exact (and_iff_left ⟨by simp [keysOf], List.nodup_nil⟩).symm
  | cons tuple tuples ih =>
    obtain ⟨htuple, htuples⟩ := List.forall_mem_cons.1 hvalid
    have hfresh : ∀ v, T.insertOne ∅ t tuple = .ok v →
        (Fresh cfg t (tuple :: tuples) ↔ Fresh cfg t [tuple] ∧ Fresh cfg v tuples) := by
      intro v hv
      have heach : T.insertEach ∅ t [tuple] = .ok v :=
        insertEach_cons_eq_ok_iff.2 ⟨v, hv, rfl⟩
      exact fresh_append heach
    rw [List.foldlM_cons, Fallible.bind_eq_ok_iff, insertEach_cons_eq_ok_iff]
    constructor
    · rintro ⟨v, hv, hrest⟩
      obtain ⟨hone, hfirst⟩ := (append_eq_ok_iff hindex htuple).1 hv
      obtain ⟨heach, hlater⟩ := (ih htuples).1 hrest
      exact ⟨⟨v, hone, heach⟩, (hfresh v hone).2 ⟨hfirst, hlater⟩⟩
    · rintro ⟨⟨v, hone, heach⟩, h⟩
      obtain ⟨hfirst, hlater⟩ := (hfresh v hone).1 h
      exact ⟨v, (append_eq_ok_iff hindex htuple).2 ⟨hone, hfirst⟩, (ih htuples).2 ⟨heach, hlater⟩⟩

/-- **A batch with `copy`**, by a writer that does not upsert. -/
theorem executeCopyBatch_eq_ok_iff (hindex : T.hasUniqueIndex = true) {d d' : Db κ ν}
    {batch : PreparedWriteBatch κ ν} (hupsert : cfg.upsert = false) (hne : batch.rows ≠ [])
    (hextra : ∀ row ∈ batch.rows, row.keys.toFinset ⊆ batch.columns.toFinset)
    (halways : ∀ c ∈ batch.columns.toFinset, T.kind c ≠ some (.identity true)) :
    T.executeCopyBatch d batch = .ok d'
      ↔ T.executeSqlBatch d batch = .ok d'
        ∧ Fresh cfg d.table
          (T.tuples batch.columns.toFinset d.drawn (batch.rows.map values)) := by
  have hupdates : cfg.updateSet batch.columns.toFinset = ∅ := by
    simp [WriteConfig.updateSet, hupsert]
  -- both modes refuse the same columns, as no identity in the batch is always generated
  have herrors : T.insertError batch.columns.toFinset = none
      ↔ T.copyError batch.columns.toFinset = none := by
    rw [insertError_eq_none_iff, copyError_eq_none_iff]
    constructor
    · rintro ⟨⟨hcolumns, _⟩, hkinds, hlisted, _⟩
      refine ⟨hcolumns, hkinds, fun c hc hkind => ?_⟩
      have hc := hlisted c hc
      rw [hkind] at hc
      exact absurd hc (by simp [ColumnKind.isAlways])
    · rintro ⟨hcolumns, hkinds, hgenerated⟩
      refine ⟨⟨hcolumns, T.keys_ne_nil hindex⟩, hkinds, fun c hc => ?_, hindex⟩
      have hidentity := halways c hc
      have hgenerated := hgenerated c hc
      rcases hkind : T.kind c with _ | default | _ | always | _
      · rfl
      · rfl
      · rfl
      · rw [hkind] at hidentity
        cases always
        · rfl
        · exact absurd rfl hidentity
      · exact absurd hkind hgenerated
  have hcopy : T.executeCopyBatch d batch = .ok d'
      ↔ ∃ tuples, T.copied batch.columns.toFinset d.drawn batch.rows = .ok tuples
        ∧ ∃ table, tuples.foldlM T.append d.table = .ok table
          ∧ (⟨table, T.draw batch.columns.toFinset batch.rows.length d.drawn⟩ : Db κ ν) = d' := by
    unfold executeCopyBatch
    rw [Fallible.bind_eq_ok_iff]
    refine exists_congr (fun tuples => and_congr_right (fun _ => ?_))
    rw [Fallible.bind_eq_ok_iff]
    exact exists_congr (fun table => and_congr_right (fun _ => iff_of_eq (Except.ok.injEq _ _)))
  rw [hcopy, executeSqlBatch_eq_ok_iff hne (.inl hupdates), herrors, hupdates]
  constructor
  · rintro ⟨tuples, hcopied, table, happend, rfl⟩
    obtain ⟨herror, hcolumns, hvalid, rfl⟩ := copied_eq_ok_iff.1 hcopied
    obtain ⟨heach, hfresh⟩ := (foldlM_append_eq_ok_iff hindex hvalid).1 happend
    exact ⟨⟨herror, fun row hrow => (hextra row hrow).antisymm (hcolumns row hrow), heach, rfl⟩,
      hfresh⟩
  · rintro ⟨⟨herror, hrows, heach, hdrawn⟩, hfresh⟩
    have hvalid := valid_of_insertEach heach
    exact ⟨_, copied_eq_ok_iff.2
      ⟨herror, fun row hrow => (hrows row hrow).symm.subset, hvalid, rfl⟩,
      d'.table, (foldlM_append_eq_ok_iff hindex hvalid).2 ⟨heach, hfresh⟩,
      Db.ext rfl hdrawn.symm⟩

/-! ## The batches of a flush -/

/-- What the batches of a flush are like: there are rows in them with no columns but the
batch's, and its columns are those of some row. -/
structure Prepared (rows : List (Row κ ν)) (batch : PreparedWriteBatch κ ν) : Prop where
  rows_ne_nil : batch.rows ≠ []
  extra : ∀ row ∈ batch.rows, row.keys.toFinset ⊆ batch.columns.toFinset
  column : ∀ c ∈ batch.columns.toFinset, ∃ row ∈ rows, c ∈ row.keys

omit [DecidableEq ν] in
theorem rows_ne_nil_of_mem_addToGroup {columns : List κ} {row : Row κ ν}
    {batches : List (PreparedWriteBatch κ ν)} (h : ∀ batch ∈ batches, batch.rows ≠ []) :
    ∀ batch ∈ WriteConfig.addToGroup columns row batches, batch.rows ≠ [] := by
  induction batches with
  | nil => simp [WriteConfig.addToGroup]
  | cons first batches ih =>
    obtain ⟨hfirst, hbatches⟩ := List.forall_mem_cons.1 h
    unfold WriteConfig.addToGroup
    split
    · exact List.forall_mem_cons.2 ⟨by simp, hbatches⟩
    · exact List.forall_mem_cons.2 ⟨hfirst, ih hbatches⟩

omit [DecidableEq ν] in
theorem rows_ne_nil_of_mem_groupRows {rows : List (Row κ ν)} :
    ∀ batch ∈ cfg.groupRows rows, batch.rows ≠ [] := by
  induction rows using List.reverseRecOn with
  | nil => simp [WriteConfig.groupRows]
  | append_singleton rows row ih =>
    unfold WriteConfig.groupRows
    rw [List.foldl_append]
    exact rows_ne_nil_of_mem_addToGroup ih

omit [DecidableEq ν] in
/-- **The batches of a flush.** In strict mode no row may have a column that the first one
lacks. -/
theorem prepared_of_mem {rows : List (Row κ ν)} {batches : List (PreparedWriteBatch κ ν)}
    (hextra : cfg.policy = .strict → ∀ first ∈ rows.head?, ∀ row ∈ rows, row.keys ⊆ first.keys)
    (h : cfg.preparedWriteBatches rows = .ok batches) :
    ∀ batch ∈ batches, Prepared rows batch := by
  unfold WriteConfig.preparedWriteBatches at h
  cases rows with
  | nil =>
    obtain rfl : [] = batches := Except.ok.inj h
    simp
  | cons row rows =>
    cases hpolicy : cfg.policy with
    | strict =>
      rw [hpolicy] at h
      obtain rfl : [⟨row.keys, row :: rows⟩] = batches := Except.ok.inj h
      intro batch hbatch
      obtain rfl := List.mem_singleton.1 hbatch
      refine ⟨List.cons_ne_nil _ _, fun row' hrow' c hc => ?_, fun c hc => ?_⟩
      · exact List.mem_toFinset.2 (hextra hpolicy row rfl row' hrow' (List.mem_toFinset.1 hc))
      · exact ⟨row, List.mem_cons_self, List.mem_toFinset.1 hc⟩
    | alignToTarget =>
      rw [hpolicy] at h
      obtain ⟨normalized, hnormalized, hgroups⟩ := Fallible.bind_eq_ok_iff.1 h
      obtain rfl : cfg.groupRows normalized = batches := Except.ok.inj hgroups
      obtain ⟨huniform, hperm⟩ := @WriteConfig.groupRows_spec _ _ _ cfg normalized
      -- a normalised row has columns of the row it is made of, and they can be written
      have hof : ∀ row' ∈ normalized, (∀ c ∈ row'.keys, cfg.writable c = true)
          ∧ ∃ raw ∈ row :: rows, ∀ c ∈ row'.keys, c ∈ raw.keys := by
        intro row' hrow'
        obtain ⟨raw, hraw, hok⟩ := Fallible.exists_of_mem_of_mapM_eq_ok hnormalized row' hrow'
        refine ⟨(WriteConfig.normalizeRow_of_ok hok).2, raw, hraw, fun c hc => ?_⟩
        rw [WriteConfig.eq_restrict_of_normalizeRow hok] at hc
        exact (Dict.mem_keys_restrict.1 hc).1
      intro batch hbatch
      have hmem : ∀ row' ∈ batch.rows, row' ∈ normalized := fun row' hrow' =>
        hperm.mem_iff.1 (List.mem_flatMap.2 ⟨batch, hbatch, hrow'⟩)
      have hcolumns : ∀ row' ∈ batch.rows, batch.columns.toFinset = row'.keys.toFinset := by
        intro row' hrow'
        rw [← huniform batch hbatch row' hrow']
        exact WriteConfig.toFinset_orderedColumns (hof row' (hmem row' hrow')).1
      refine ⟨rows_ne_nil_of_mem_groupRows batch hbatch,
        fun row' hrow' => (hcolumns row' hrow').symm.subset, fun c hc => ?_⟩
      obtain ⟨row', hrow'⟩ :=
        List.exists_mem_of_ne_nil _ (rows_ne_nil_of_mem_groupRows batch hbatch)
      obtain ⟨raw, hraw, hkeys⟩ := (hof row' (hmem row' hrow')).2
      rw [hcolumns row' hrow', List.mem_toFinset] at hc
      exact ⟨raw, hraw, hkeys c hc⟩

/-! ## A flush -/

variable (T) in
/-- A flush with `sql` in which staging draws its numbers before each batch. -/
def flushStaged (d : Db κ ν) (rows : List (Row κ ν)) : Except Rejection (Db κ ν) := do
  let batches ← (cfg.preparedWriteBatches rows).mapError .writeError
  batches.foldlM T.executeSqlBatchStaged d

variable (T) in
/-- Batches that can be merged, one after the other. -/
def AllMergeable : (κ → ℕ) → List (PreparedWriteBatch κ ν) → Prop
  | _, [] => True
  | drawn, batch :: batches =>
    T.Mergeable drawn batch
      ∧ AllMergeable
        (T.draw batch.columns.toFinset batch.rows.length (T.staged batch drawn)) batches

variable (T) in
/-- The tuples of batches, one after the other. -/
def allTuples : (κ → ℕ) → List (PreparedWriteBatch κ ν) → List (Tuple κ ν)
  | _, [] => []
  | drawn, batch :: batches =>
    T.tuples batch.columns.toFinset drawn (batch.rows.map values)
      ++ allTuples (T.draw batch.columns.toFinset batch.rows.length drawn) batches

variable (T) in
/-- **A flush whose batches can be merged.** -/
def FlushMergeable (d : Db κ ν) (rows : List (Row κ ν)) : Prop :=
  ∀ batches, cfg.preparedWriteBatches rows = .ok batches → T.AllMergeable d.drawn batches

variable (T) in
/-- **A flush that brings no key twice**, nor one that is there. -/
def FlushFresh (d : Db κ ν) (rows : List (Row κ ν)) : Prop :=
  ∀ batches, cfg.preparedWriteBatches rows = .ok batches →
    Fresh cfg d.table (T.allTuples d.drawn batches)

omit [DecidableEq ν] in
/-- **A flush is accepted** just if the rows can be prepared, and then batch after batch is. -/
theorem flush_eq_ok_iff_batches {f : Db κ ν → PreparedWriteBatch κ ν → Except Rejection (Db κ ν)}
    {d d' : Db κ ν} {rows : List (Row κ ν)} :
    ((cfg.preparedWriteBatches rows).mapError Rejection.writeError >>= fun batches =>
        batches.foldlM f d) = .ok d'
      ↔ ∃ batches, cfg.preparedWriteBatches rows = .ok batches ∧ batches.foldlM f d = .ok d' := by
  rw [Fallible.bind_eq_ok_iff]
  cases cfg.preparedWriteBatches rows <;> simp [Except.mapError]

/-- Batches with `copy_merge`. -/
theorem foldlM_copyMerge_eq_ok_iff {batches : List (PreparedWriteBatch κ ν)} {d d' : Db κ ν}
    {rows : List (Row κ ν)} (h : ∀ batch ∈ batches, Prepared rows batch) :
    batches.foldlM T.executeCopyMergeBatch d = .ok d'
      ↔ batches.foldlM T.executeSqlBatchStaged d = .ok d' ∧ T.AllMergeable d.drawn batches := by
  induction batches generalizing d with
  | nil => exact (and_iff_left True.intro).symm
  | cons batch batches ih =>
    obtain ⟨hbatch, hbatches⟩ := List.forall_mem_cons.1 h
    -- the numbers that a batch draws do not depend on the table
    have hdrawn : ∀ v, T.Mergeable d.drawn batch → T.executeSqlBatchStaged d batch = .ok v →
        v.drawn = T.draw batch.columns.toFinset batch.rows.length (T.staged batch d.drawn) :=
      fun v hmergeable hv => ((executeSqlBatch_eq_ok_iff
        (d := ⟨d.table, T.staged batch d.drawn⟩) hbatch.rows_ne_nil hmergeable.2).1 hv).2.2.2
    rw [List.foldlM_cons, List.foldlM_cons, Fallible.bind_eq_ok_iff, Fallible.bind_eq_ok_iff]
    constructor
    · rintro ⟨v, hv, hrest⟩
      obtain ⟨hsql, hmergeable⟩ :=
        (executeCopyMergeBatch_eq_ok_iff hbatch.rows_ne_nil hbatch.extra).1 hv
      obtain ⟨hsqls, hall⟩ := (ih hbatches).1 hrest
      rw [hdrawn v hmergeable hsql] at hall
      exact ⟨⟨v, hsql, hsqls⟩, hmergeable, hall⟩
    · rintro ⟨⟨v, hsql, hsqls⟩, hmergeable, hall⟩
      rw [← hdrawn v hmergeable hsql] at hall
      exact ⟨v, (executeCopyMergeBatch_eq_ok_iff hbatch.rows_ne_nil hbatch.extra).2
        ⟨hsql, hmergeable⟩, (ih hbatches).2 ⟨hsqls, hall⟩⟩

/-- Batches with `copy`. -/
theorem foldlM_copy_eq_ok_iff (hindex : T.hasUniqueIndex = true) (hupsert : cfg.upsert = false)
    {batches : List (PreparedWriteBatch κ ν)} {d d' : Db κ ν} {rows : List (Row κ ν)}
    (h : ∀ batch ∈ batches, Prepared rows batch)
    (halways : ∀ row ∈ rows, ∀ c ∈ row.keys, T.kind c ≠ some (.identity true)) :
    batches.foldlM T.executeCopyBatch d = .ok d'
      ↔ batches.foldlM T.executeSqlBatch d = .ok d'
        ∧ Fresh cfg d.table (T.allTuples d.drawn batches) := by
  induction batches generalizing d with
  | nil => exact (and_iff_left ⟨by simp [allTuples, keysOf], List.nodup_nil⟩).symm
  | cons batch batches ih =>
    obtain ⟨hbatch, hbatches⟩ := List.forall_mem_cons.1 h
    have hupdates : cfg.updateSet batch.columns.toFinset = ∅ := by
      simp [WriteConfig.updateSet, hupsert]
    have hlisted : ∀ c ∈ batch.columns.toFinset, T.kind c ≠ some (.identity true) := by
      intro c hc
      obtain ⟨row, hrow, hcolumn⟩ := hbatch.column c hc
      exact halways row hrow c hcolumn
    have hcopy : ∀ v, T.executeCopyBatch d batch = .ok v
        ↔ T.executeSqlBatch d batch = .ok v ∧ Fresh cfg d.table
          (T.tuples batch.columns.toFinset d.drawn (batch.rows.map values)) :=
      fun v => executeCopyBatch_eq_ok_iff hindex hupsert hbatch.rows_ne_nil hbatch.extra hlisted
    -- what is there after a batch are its keys and those there before
    have hfresh : ∀ v, T.executeSqlBatch d batch = .ok v →
        (Fresh cfg d.table (T.allTuples d.drawn (batch :: batches))
          ↔ Fresh cfg d.table (T.tuples batch.columns.toFinset d.drawn (batch.rows.map values))
            ∧ Fresh cfg v.table (T.allTuples v.drawn batches)) := by
      intro v hv
      obtain ⟨_, _, heach, hdrawn⟩ :=
        (executeSqlBatch_eq_ok_iff hbatch.rows_ne_nil (.inl hupdates)).1 hv
      rw [hdrawn]
      exact fresh_append heach
    rw [List.foldlM_cons, List.foldlM_cons, Fallible.bind_eq_ok_iff, Fallible.bind_eq_ok_iff]
    constructor
    · rintro ⟨v, hv, hrest⟩
      obtain ⟨hsql, hfirst⟩ := (hcopy v).1 hv
      obtain ⟨hsqls, hlater⟩ := (ih hbatches).1 hrest
      exact ⟨⟨v, hsql, hsqls⟩, (hfresh v hsql).2 ⟨hfirst, hlater⟩⟩
    · rintro ⟨⟨v, hsql, hsqls⟩, hall⟩
      obtain ⟨hfirst, hlater⟩ := (hfresh v hsql).1 hall
      exact ⟨v, (hcopy v).2 ⟨hsql, hfirst⟩, (ih hbatches).2 ⟨hsqls, hlater⟩⟩

omit [DecidableEq ν] in
/-- Where no serial column is left out, staging draws nothing. -/
theorem staged_eq_self {batch : PreparedWriteBatch κ ν} (drawn : κ → ℕ)
    (h : ∀ c ∉ batch.columns, T.kind c ≠ some .serial) : T.staged batch drawn = drawn := by
  funext c
  unfold staged draw
  refine if_neg (fun hdraws => ?_)
  obtain ⟨hc, hdraws⟩ := hdraws
  have hserial := h c (fun hmem => hc (List.mem_toFinset.2 hmem))
  unfold drawsNumber at hdraws
  rw [staging_kind] at hdraws
  rcases hkind : T.kind c with _ | default | _ | always | _ <;> rw [hkind] at hdraws hserial
  · cases hdraws
  · cases hdraws
  · exact hserial rfl
  · cases hdraws
  · cases hdraws

/-! ## The insert modes -/

variable (T) in
/-- **The modes agree** on a flush: they accept it or not, and leave the same rows. -/
def ModesAgree (d : Db κ ν) (rows : List (Row κ ν)) : Prop :=
  ∀ mode ∈ cfg.insertModes, ∀ mode' ∈ cfg.insertModes, ∀ table,
    (∃ d', T.flush mode d rows = .ok d' ∧ d'.table = table)
      ↔ ∃ d', T.flush mode' d rows = .ok d' ∧ d'.table = table

/-- **A flush with `copy_merge`**: what one with `sql` does from the numbers that staging
leaves, if its batches can be merged. -/
theorem flush_copyMerge_eq_ok_iff {d d' : Db κ ν} {rows : List (Row κ ν)}
    (hextra : cfg.policy = .strict →
      ∀ first ∈ rows.head?, ∀ row ∈ rows, row.keys ⊆ first.keys) :
    T.flush .copyMerge d rows = .ok d'
      ↔ T.flushStaged d rows = .ok d' ∧ T.FlushMergeable d rows := by
  unfold flush flushStaged
  rw [flush_eq_ok_iff_batches, flush_eq_ok_iff_batches]
  constructor
  · rintro ⟨batches, hbatches, hmerge⟩
    obtain ⟨hsql, hall⟩ :=
      (foldlM_copyMerge_eq_ok_iff (prepared_of_mem hextra hbatches)).1 hmerge
    refine ⟨⟨batches, hbatches, hsql⟩, fun batches' hbatches' => ?_⟩
    obtain rfl : batches = batches' := Except.ok.inj (hbatches.symm.trans hbatches')
    exact hall
  · rintro ⟨⟨batches, hbatches, hsql⟩, hall⟩
    exact ⟨batches, hbatches, (foldlM_copyMerge_eq_ok_iff (prepared_of_mem hextra hbatches)).2
      ⟨hsql, hall batches hbatches⟩⟩

/-- Where no serial column is left out, staging leaves the numbers alone. -/
theorem flushStaged_eq_flush {d : Db κ ν} {rows : List (Row κ ν)}
    (hserial : ∀ batches, cfg.preparedWriteBatches rows = .ok batches →
      ∀ batch ∈ batches, ∀ c ∉ batch.columns, T.kind c ≠ some .serial) :
    T.flushStaged d rows = T.flush .sql d rows := by
  unfold flush flushStaged
  cases hbatches : cfg.preparedWriteBatches rows with
  | error e => rfl
  | ok batches =>
    show batches.foldlM T.executeSqlBatchStaged d = batches.foldlM T.executeSqlBatch d
    have hserial := hserial batches hbatches
    clear hbatches
    induction batches generalizing d with
    | nil => rfl
    | cons batch batches ih =>
      obtain ⟨hbatch, hrest⟩ := List.forall_mem_cons.1 hserial
      have hsame : T.executeSqlBatchStaged d batch = T.executeSqlBatch d batch := by
        unfold executeSqlBatchStaged
        rw [staged_eq_self d.drawn hbatch]
      rw [List.foldlM_cons, List.foldlM_cons, hsame]
      exact congrArg _ (funext (fun v => ih hrest))

/-- **A flush with `copy`**: what one with `sql` does, if no key is there already or comes
twice. -/
theorem flush_copy_eq_ok_iff {d d' : Db κ ν} {rows : List (Row κ ν)}
    (hextra : cfg.policy = .strict →
      ∀ first ∈ rows.head?, ∀ row ∈ rows, row.keys ⊆ first.keys)
    (hupsert : cfg.upsert = false) (hindex : T.hasUniqueIndex = true)
    (halways : ∀ row ∈ rows, ∀ c ∈ row.keys, T.kind c ≠ some (.identity true)) :
    T.flush .copy d rows = .ok d' ↔ T.flush .sql d rows = .ok d' ∧ T.FlushFresh d rows := by
  unfold flush
  rw [flush_eq_ok_iff_batches, flush_eq_ok_iff_batches]
  constructor
  · rintro ⟨batches, hbatches, hcopy⟩
    obtain ⟨hsql, hfresh⟩ := (foldlM_copy_eq_ok_iff hindex hupsert
      (prepared_of_mem hextra hbatches) halways).1 hcopy
    refine ⟨⟨batches, hbatches, hsql⟩, fun batches' hbatches' => ?_⟩
    obtain rfl : batches = batches' := Except.ok.inj (hbatches.symm.trans hbatches')
    exact hfresh
  · rintro ⟨⟨batches, hbatches, hsql⟩, hfresh⟩
    exact ⟨batches, hbatches, (foldlM_copy_eq_ok_iff hindex hupsert
      (prepared_of_mem hextra hbatches) halways).2 ⟨hsql, hfresh batches hbatches⟩⟩

/-- Tickets by their number, one in a statement. -/
def tickets (upsert : Bool) : WriteConfig String ℕ where
  conflictKeys := ["id"]
  upsert := upsert
  maxRowsPerStatement := some 1

/-- Their table. -/
def ticketTable (upsert : Bool) (kind : ColumnKind ℕ) (hkind : kind ≠ .generated)
    (hasUniqueIndex : Bool) : TargetTable (tickets upsert) where
  kind := fun c =>
    if c = "id" then some kind else if c = "amount" then some (.plain none) else none
  notNull := {"id"}
  number := fun _ n => n
  hasUniqueIndex := hasUniqueIndex
  keys_stored := by
    intro c hc
    obtain rfl := List.mem_singleton.1 hc
    simpa using hkind
  keys_ne_nil := fun _ => List.cons_ne_nil _ _

/-- No ticket, and no number drawn. -/
def noTickets : Db String ℕ := ⟨WriteConfig.emptyTable, fun _ => 0⟩

/-- Two modes disagree if one accepts what the other rejects. -/
theorem not_modesAgree_of {d : Db κ ν} {rows : List (Row κ ν)} (mode mode' : InsertMode)
    (hmode : mode ∈ cfg.insertModes) (hmode' : mode' ∈ cfg.insertModes)
    (haccepts : ∃ d', T.flush mode d rows = .ok d')
    (hrejects : ∃ e, T.flush mode' d rows = .error e) : ¬ T.ModesAgree d rows := by
  obtain ⟨d', hd'⟩ := haccepts
  obtain ⟨e, he⟩ := hrejects
  intro h
  obtain ⟨u, hu, _⟩ := (h mode hmode mode' hmode' d'.table).1 ⟨d', hd', rfl⟩
  rw [he] at hu
  cases hu

end TargetTable

import AgoraPlugins.Fallible
import AgoraPlugins.Postgres.SourceStream
import Mathlib.Data.List.Perm.Subperm
import Mathlib.Order.WithBot

/-!
# Resuming a read of a BigQuery table

A source with a checkpoint column reads the table in the order of that column, and of the
tiebreaker if it has one. The cursor of its checkpoint is taken from the last row that it has
emitted, and the run that resumes asks for the rows that come after it.

What comes after a row in the order is not what SQL says is greater: `NULL` comes first and
compares with nothing, and so does `NaN`. And the row is what the query has selected of it, so
a cursor that is not selected is `None`. A single cursor that is `None` is no cursor, and the
run begins anew; in a composite one it is compared with, and no row is greater.
-/

namespace BigQuerySources

/-! ## Values -/

/-- **A value in a column**: `NULL`, a `NaN`, or one that compares with the others. -/
inductive Cell (V : Type) where
  | null
  | nan
  | value (v : V)
  deriving DecidableEq

namespace Cell

variable {V : Type}

/-- Where a value stands in `ORDER BY`: `NULL` first, then `NaN`. -/
def rank : Cell V → WithBot (WithBot V)
  | null => ⊥
  | nan => ((⊥ : WithBot V) : WithBot (WithBot V))
  | value v => ((v : WithBot V) : WithBot (WithBot V))

/-- A value that compares with the others. -/
def IsValue (a : Cell V) : Prop := ∃ v, a = value v

/-- `a > b`, where `WHERE` takes the unknown for false. -/
def gt [LinearOrder V] : Cell V → Cell V → Bool
  | value a, value b => b < a
  | _, _ => false

/-- `a = b`, likewise. -/
def eqv [LinearOrder V] : Cell V → Cell V → Bool
  | value a, value b => a = b
  | _, _ => false

theorem not_isValue_nan : ¬ (nan : Cell V).IsValue := fun ⟨_, h⟩ => by cases h

variable [LinearOrder V]

/-- Nothing is greater than what compares with nothing. -/
theorem gt_eq_false_of_not_isValue {a b : Cell V} (h : ¬ b.IsValue) : a.gt b = false := by
  cases b with
  | value v => exact absurd ⟨v, rfl⟩ h
  | null => cases a <;> rfl
  | nan => cases a <;> rfl

/-- After a value come values, the greater ones and the equal ones. -/
theorem gt_or_eq_of_rank_le {a : Cell V} {v : V} (h : (value v).rank ≤ a.rank) :
    a.gt (value v) = true ∨ a = value v := by
  cases a with
  | null => exact absurd h (not_le_of_gt (WithBot.bot_lt_coe _))
  | nan => exact absurd h (not_le_of_gt (WithBot.coe_lt_coe.2 (WithBot.bot_lt_coe v)))
  | value w =>
    have hle : v ≤ w := WithBot.coe_le_coe.1 (WithBot.coe_le_coe.1 h)
    rcases hle.lt_or_eq with hlt | rfl
    · exact .inl (decide_eq_true hlt)
    · exact .inr rfl

theorem eqv_eq_false_of_not_isValue {a b : Cell V} (h : ¬ b.IsValue) : a.eqv b = false := by
  cases b with
  | value v => exact absurd ⟨v, rfl⟩ h
  | null => cases a <;> rfl
  | nan => cases a <;> rfl

theorem gt_self (a : Cell V) : a.gt a = false := by
  cases a <;> simp [gt]

@[simp] theorem eqv_value (v : V) : (value v).eqv (value v) = true := by
  simp [eqv]

end Cell

/-- A row, by the names that a query may use for its columns. -/
abbrev TableRow (V : Type) := String → Cell V

/-- **`ORDER BY`.** -/
def OrderLe {V : Type} [LinearOrder V] : List String → TableRow V → TableRow V → Prop
  | [], _, _ => True
  | column :: columns, a, b =>
    (a column).rank < (b column).rank
      ∨ ((a column).rank = (b column).rank ∧ OrderLe columns a b)

/-- **Rows in an order** are in that of its first columns. -/
theorem OrderLe.of_initial {V : Type} [LinearOrder V] {xs ys : List String} {a b : TableRow V}
    (hinitial : xs <+: ys) (h : OrderLe ys a b) : OrderLe xs a b := by
  induction xs generalizing ys with
  | nil => trivial
  | cons x xs ih =>
    obtain ⟨zs, rfl⟩ := hinitial
    exact h.imp_right (fun h' => ⟨h'.1, ih (List.prefix_append xs zs) h'.2⟩)

/-- In particular in that of its first column. -/
theorem OrderLe.rank_le {V : Type} [LinearOrder V] {column : String} {columns : List String}
    {a b : TableRow V} (h : OrderLe (column :: columns) a b) :
    (a column).rank ≤ (b column).rank := by
  rcases h with hlt | ⟨heq, -⟩
  · exact hlt.le
  · exact heq.le

/-! ## Queries -/

/-- The types that a query's parameters may have. -/
inductive ScalarType where
  | bool
  | int64
  | float64
  | numeric
  | timestamp
  | date
  | time
  | string

/-- The Python types that are told apart. -/
inductive PyType where
  | bool
  | int
  | float
  | decimal
  | datetime
  | date
  | time
  | none
  | other

/-- **`_bq_scalar_type`.** -/
def bqScalarType : PyType → ScalarType
  | .bool => .bool
  | .int => .int64
  | .float => .float64
  | .decimal => .numeric
  | .datetime => .timestamp
  | .date => .date
  | .time => .time
  | .none => .string
  | .other => .string

/-- What is asked of the rows beyond the cursor. -/
inductive Condition (V : Type) where
  | after (column : String) (cursor : Cell V)
  | afterComposite (column tiebreaker : String) (cursor tiebreakerCursor : Cell V)
  /-- as the first one, with a dict where the cursor should be -/
  | afterDict (column : String)

/-- **A query on the table.** -/
structure Query (V : Type) where
  selected : List String
  condition : Option (Condition V)
  orderBy : List String

namespace Condition

variable {V : Type}

/-- The columns that are compared with a parameter. -/
def comparisons : Condition V → List (String × Cell V)
  | .after column cursor => [(column, cursor)]
  | .afterComposite column tiebreaker cursor tiebreakerCursor =>
    [(column, cursor), (tiebreaker, tiebreakerCursor)]
  | .afterDict _ => []

/-- The parameters of the condition are values. -/
def IsScalar : Condition V → Prop
  | .after _ _ | .afterComposite _ _ _ _ => True
  | .afterDict _ => False

/-- The condition is true of a row, not unknown. -/
def holds [LinearOrder V] (row : TableRow V) : Condition V → Bool
  | .after column cursor => (row column).gt cursor
  | .afterComposite column tiebreaker cursor tiebreakerCursor =>
    (row column).gt cursor
      || ((row column).eqv cursor && (row tiebreaker).gt tiebreakerCursor)
  | .afterDict _ => false

end Condition

/-- **What BigQuery does with values**: the Python type in which its client returns them, and
whether a column may be compared with a parameter of a type. -/
structure Service (V : Type) where
  pyType : V → PyType
  accepts : String → ScalarType → Prop

/-- The type of a parameter. -/
def Service.parameterType {V : Type} (service : Service V) : Cell V → ScalarType
  | .null => bqScalarType .none
  | .nan => bqScalarType .float
  | .value v => bqScalarType (service.pyType v)

namespace Query

variable {V : Type} [LinearOrder V]

def selects (query : Query V) (row : TableRow V) : Bool :=
  query.condition.all (Condition.holds row)

/-- The parameters of the condition are values, of types that their columns are compared with. -/
def Accepted (service : Service V) (query : Query V) : Prop :=
  ∀ condition ∈ query.condition, condition.IsScalar ∧ ∀ comparison ∈ condition.comparisons,
    service.accepts comparison.1 (service.parameterType comparison.2)

/-- **The result of a query**, which is an error without any row when it is not accepted. -/
structure Answers (service : Service V) (query : Query V) (table result : List (TableRow V)) :
    Prop where
  rows : query.Accepted service → result.Perm (table.filter query.selects)
  sorted : result.Pairwise (OrderLe query.orderBy)
  rejected : ¬ query.Accepted service → result = []

end Query

/-! ## The source -/

/-- A table: the names of its columns, and its rows. -/
structure Table (V : Type) where
  fields : List String
  rows : List (TableRow V)

/-- A row as `dict`: what the result has of it. -/
abbrev RowDict (V : Type) := String → Option (Cell V)

/-- The cursor of a checkpoint. -/
inductive Cursor (V : Type) where
  | scalar (value : Cell V)
  | composite (cursor tiebreakerCursor : Cell V)

/-- **A source in table mode**, with what its constructor requires of the options. -/
structure BigQuerySource (V τ : Type) where
  columns : List String
  orderBy : List String
  checkpointColumn : Option String
  checkpointTiebreakerColumn : Option String
  checkpointColumnIsUnique : Bool
  rowMapper : RowDict V → Except Exc (Option τ)
  onRecordError : SourceRecordFailurePolicy
  tiebreaker_requires : checkpointTiebreakerColumn.isSome → checkpointColumn.isSome
  tiebreaker_ne : ∀ name ∈ checkpointTiebreakerColumn, checkpointColumn ≠ some name
  unique_or_tiebreaker : checkpointColumn.isSome →
    (checkpointTiebreakerColumn.isSome ∨ checkpointColumnIsUnique = true)
  not_both : ¬ (checkpointColumnIsUnique = true ∧ checkpointTiebreakerColumn.isSome)
  order_starts : orderBy ≠ [] →
    (checkpointColumn.toList ++ checkpointTiebreakerColumn.toList) <+: orderBy

/-- The progress of a read. -/
structure ReadState (V : Type) where
  rowsSeen : ℕ := 0
  lastCheckpointCursor : Option (Cursor V) := none
  /-- the rows whose records have been emitted -/
  emitted : List (TableRow V) := []

namespace BigQuerySource

variable {V τ : Type} (cfg : BigQuerySource V τ)

def checkpointOrder : List String :=
  cfg.checkpointColumn.toList ++ cfg.checkpointTiebreakerColumn.toList

/-- `validated_order_by or checkpoint_order`. -/
def effectiveOrder : List String :=
  if cfg.orderBy = [] then cfg.checkpointOrder else cfg.orderBy

/-- The `WHERE` clause, with its parameters. -/
def resumeCondition : Option (Cursor V) → Except Exc (Option (Condition V))
  | none => .ok none
  | some cursor =>
    match cfg.checkpointColumn, cfg.checkpointTiebreakerColumn, cursor with
    | none, _, _ => .ok none
    | some column, none, .scalar value => .ok (some (.after column value))
    | some column, some tiebreaker, .composite value tiebreakerValue =>
      .ok (some (.afterComposite column tiebreaker value tiebreakerValue))
    | some column, none, .composite _ _ => .ok (some (.afterDict column))
    | some _, some _, .scalar _ =>
      .error (.exception "ValueError"
        ("BigQuery composite checkpoint resume requires a checkpoint value "
          ++ "containing both cursor and tiebreaker_cursor."))

/-- **`build_query`** of table mode. -/
def buildQuery (resumeCursor : Option (Cursor V)) : Except Exc (Query V) :=
  (cfg.resumeCondition resumeCursor).map (fun condition =>
    { selected := cfg.columns, condition, orderBy := cfg.effectiveOrder })

/-- **`_row_to_dict`**, of what the query has selected. -/
def rowDict (table : Table V) (row : TableRow V) : RowDict V := fun column =>
  if column ∈ (if cfg.columns = [] then table.fields else cfg.columns) then some (row column)
  else none

/-- `row_dict.get(column)`. -/
def get (table : Table V) (row : TableRow V) (column : String) : Cell V :=
  (cfg.rowDict table row column).getD .null

/-- **The checkpoint cursor of a row**; a scalar one may be `None`. -/
def cursorOf (table : Table V) (row : TableRow V) : Option (Cursor V) :=
  match cfg.checkpointColumn, cfg.checkpointTiebreakerColumn with
  | none, _ => none
  | some column, none =>
    match cfg.get table row column with
    | .null => none
    | value => some (.scalar value)
  | some column, some tiebreaker =>
    some (.composite (cfg.get table row column) (cfg.get table row tiebreaker))

/-- What becomes of a row. -/
inductive Outcome where
  | emitted
  | dropped
  | raised (e : Exc)

/-- The mapper is called, and the policy decides on what it raises. -/
def outcome (table : Table V) (row : TableRow V) : Outcome :=
  match cfg.rowMapper (cfg.rowDict table row) with
  | .error e =>
    if e.isException then
      match cfg.onRecordError with
      | .logAndContinue => .dropped
      | .failClosed => .raised PostgresSource.sourceRecordError
    else .raised e
  | .ok none => .dropped
  | .ok (some _) => .emitted

/-- **One row of the read loop**, and what it raises. -/
def readRow (table : Table V) (row : TableRow V) (s : ReadState V) : ReadState V × Option Exc :=
  let seen := { s with rowsSeen := s.rowsSeen + 1 }
  match cfg.outcome table row with
  | .raised e => (seen, some e)
  | .dropped => (seen, none)
  | .emitted =>
    ({ seen with
      lastCheckpointCursor :=
        if cfg.checkpointColumn.isSome then cfg.cursorOf table row else s.lastCheckpointCursor
      emitted := s.emitted ++ [row] }, none)

/-- **The read loop**, up to the row that raises. -/
def readRows (table : Table V) : List (TableRow V) → ReadState V → ReadState V × Option Exc
  | [], s => (s, none)
  | row :: rows, s =>
    match cfg.readRow table row s with
    | (t, none) => readRows table rows t
    | (t, some e) => (t, some e)

end BigQuerySource

/-- **The cursor of the latest checkpoint**: `current_checkpoint` returns none before the first
row, and the earlier one is still there. -/
def ReadState.latestCursor {V : Type} (s : ReadState V) (earlier : Option (Cursor V)) :
    Option (Cursor V) :=
  if s.rowsSeen = 0 ∧ s.lastCheckpointCursor.isNone then earlier else s.lastCheckpointCursor

/-! ## What is read -/

namespace BigQuerySource

variable {V τ : Type} (cfg : BigQuerySource V τ) (table : Table V)

/-- The mapper makes a record of the row. -/
def keeps (row : TableRow V) : Bool :=
  match cfg.outcome table row with
  | .emitted => true
  | .dropped | .raised _ => false

/-- The mapper raises, and so does the read. -/
def raises (row : TableRow V) : Bool :=
  match cfg.outcome table row with
  | .raised _ => true
  | .emitted | .dropped => false

/-- The cursor after some rows. -/
def cursorAfter (rows : List (TableRow V)) : Option (Cursor V) :=
  (rows.filter (cfg.keeps table)).getLast?.bind (cfg.cursorOf table)

/-- The rows up to the first that raises. -/
def handled (rows : List (TableRow V)) : List (TableRow V) :=
  rows.takeWhile (fun row => !cfg.raises table row)

/-- What a read has done after some rows. -/
structure HasRead (rows : List (TableRow V)) (s : ReadState V) : Prop where
  emitted : s.emitted = rows.filter (cfg.keeps table)
  cursor : s.lastCheckpointCursor = cfg.cursorAfter table rows
  seen : rows ≠ [] → 0 < s.rowsSeen

variable {cfg table}

/-- Without a checkpoint column there is no cursor. -/
theorem cursorOf_of_checkpointColumn {row : TableRow V} (h : ¬ cfg.checkpointColumn.isSome) :
    cfg.cursorOf table row = none := by
  unfold cursorOf
  cases hc : cfg.checkpointColumn with
  | none => rfl
  | some column => exact absurd (by rw [hc]; rfl) h

/-- **One row**: it raises, or it has been read. -/
theorem HasRead.readRow {rows : List (TableRow V)} {s : ReadState V}
    (h : cfg.HasRead table rows s) (row : TableRow V) :
    (cfg.raises table row = true
        ∧ cfg.HasRead table rows (cfg.readRow table row s).1
        ∧ (cfg.readRow table row s).2.isSome)
      ∨ (cfg.raises table row = false
        ∧ cfg.HasRead table (rows ++ [row]) (cfg.readRow table row s).1
        ∧ (cfg.readRow table row s).2 = none) := by
  unfold BigQuerySource.readRow raises
  cases hrow : cfg.outcome table row with
  | raised e => exact .inl ⟨rfl, ⟨h.emitted, h.cursor, fun _ => Nat.succ_pos _⟩, rfl⟩
  | dropped =>
    have hfilter : (rows ++ [row]).filter (cfg.keeps table) = rows.filter (cfg.keeps table) := by
      simp [keeps, hrow]
    refine .inr ⟨rfl, ⟨?_, ?_, fun _ => Nat.succ_pos _⟩, rfl⟩
    · rw [hfilter]
      exact h.emitted
    · rw [cursorAfter, hfilter]
      exact h.cursor
  | emitted =>
    have hfilter : (rows ++ [row]).filter (cfg.keeps table)
        = rows.filter (cfg.keeps table) ++ [row] := by
      simp [keeps, hrow]
    refine .inr ⟨rfl, ⟨?_, ?_, fun _ => Nat.succ_pos _⟩, rfl⟩
    · rw [hfilter, ← h.emitted]
    · rw [cursorAfter, hfilter, List.getLast?_concat]
      show (if _ then _ else _) = cfg.cursorOf table row
      split
      · rfl
      · rename_i hcolumn
        rw [cursorOf_of_checkpointColumn hcolumn, h.cursor, cursorAfter]
        cases (rows.filter (cfg.keeps table)).getLast? with
        | none => rfl
        | some last => exact cursorOf_of_checkpointColumn hcolumn

/-- **The read loop has read the rows up to the first that raises.** -/
theorem HasRead.readRows {done : List (TableRow V)} {s : ReadState V}
    (h : cfg.HasRead table done s) (rows : List (TableRow V)) :
    cfg.HasRead table (done ++ cfg.handled table rows) (cfg.readRows table rows s).1
      ∧ ((cfg.readRows table rows s).2 = none → cfg.handled table rows = rows) := by
  induction rows generalizing done s with
  | nil =>
    refine ⟨?_, fun _ => rfl⟩
    rw [handled, List.takeWhile_nil, List.append_nil]
    exact h
  | cons row rows ih =>
    unfold BigQuerySource.readRows handled
    rcases h.readRow row with ⟨hraises, hread, hsome⟩ | ⟨hraises, hread, hnone⟩
    · rw [List.takeWhile_cons_of_neg (by simp [hraises]), List.append_nil]
      split
      · rename_i t hrow
        rw [hrow] at hsome
        cases hsome
      · rename_i t e hrow
        rw [hrow] at hread
        exact ⟨hread, nofun⟩
    · rw [List.takeWhile_cons_of_pos (by simp [hraises])]
      split
      · rename_i t hrow
        rw [hrow] at hread
        obtain ⟨hrest, hall⟩ := ih hread
        rw [List.append_assoc] at hrest
        exact ⟨hrest, fun hend => congrArg (row :: ·) (hall hend)⟩
      · rename_i t e hrow
        rw [hrow] at hnone
        cases hnone

theorem hasRead_nil : cfg.HasRead table [] {} :=
  ⟨rfl, rfl, fun h => absurd rfl h⟩

end BigQuerySource

namespace BigQuerySource

variable {V τ : Type} (cfg : BigQuerySource V τ)

/-- **Without a cursor** the query asks for every row. -/
theorem buildQuery_none : cfg.buildQuery none =
    .ok { selected := cfg.columns, condition := none, orderBy := cfg.effectiveOrder } :=
  rfl

/-- The order does not depend on the cursor. -/
theorem orderBy_of_buildQuery {cursor : Option (Cursor V)} {query : Query V}
    (h : cfg.buildQuery cursor = .ok query) : query.orderBy = cfg.effectiveOrder := by
  obtain ⟨condition, _, rfl⟩ := Fallible.map_eq_ok_iff.1 h
  rfl

/-- A value that a row is said to have, it has. -/
theorem eq_of_get_eq_value {table : Table V} {row : TableRow V} {column : String} {v : V}
    (h : cfg.get table row column = .value v) : row column = .value v := by
  rw [get, rowDict] at h
  by_cases hmem : column ∈ (if cfg.columns = [] then table.fields else cfg.columns)
  · rw [if_pos hmem] at h
    exact h
  · rw [if_neg hmem] at h
    cases h

/-- The rows come in the order of the checkpoint. -/
theorem checkpointOrder_initial : cfg.checkpointOrder <+: cfg.effectiveOrder := by
  unfold effectiveOrder
  split
  · exact List.prefix_rfl
  · rename_i h
    exact cfg.order_starts h

end BigQuerySource

/-! ## A run that stops, and the one that resumes it -/

/-- **A run and its resumption.** The run may itself have resumed an earlier one. It stops
after some rows of its result, or at one that raises; the other goes to the end of its own. -/
structure ResumedRun {V τ : Type} [LinearOrder V] (cfg : BigQuerySource V τ)
    (service : Service V) (table : Table V) where
  resumeCursor : Option (Cursor V)
  query : Query V
  query_eq : cfg.buildQuery resumeCursor = .ok query
  accepted : query.Accepted service
  result : List (TableRow V)
  answers : query.Answers service table.rows result
  stop : ℕ
  nextQuery : Query V
  nextQuery_eq : cfg.buildQuery
    ((cfg.readRows table (result.take stop) {}).1.latestCursor resumeCursor) = .ok nextQuery
  nextResult : List (TableRow V)
  nextAnswers : nextQuery.Answers service table.rows nextResult
  completes : (cfg.readRows table nextResult {}).2 = none

namespace ResumedRun

variable {V τ : Type} [LinearOrder V] {cfg : BigQuerySource V τ} {service : Service V}
  {table : Table V} (run : ResumedRun cfg service table)

/-- What the run has emitted before its checkpoint. -/
def emitted : List (TableRow V) :=
  (cfg.readRows table (run.result.take run.stop) {}).1.emitted

/-- What the resumed run emits. -/
def nextEmitted : List (TableRow V) := (cfg.readRows table run.nextResult {}).1.emitted

/-- **Together they emit every row** that the run asked for and the mapper makes a record of;
a run that has not resumed another asks for all of them. -/
def Complete : Prop :=
  ((table.rows.filter run.query.selects).filter (cfg.keeps table)).Subperm
    (run.emitted ++ run.nextEmitted)

/-- The rows that the run has come to. -/
def done : List (TableRow V) := cfg.handled table (run.result.take run.stop)

/-- Those of the others that a record can be made of. -/
def remaining : List (TableRow V) :=
  (run.result.drop run.done.length).filter (cfg.keeps table)

/-- The last row that it has emitted. -/
def last? : Option (TableRow V) := (run.done.filter (cfg.keeps table)).getLast?

end ResumedRun

/-- **Rows are unique on the checkpoint column and the tiebreaker**, as SQL has it: rows with a
`NULL` there are not equal. -/
def SameKey {V τ : Type} (cfg : BigQuerySource V τ) (a b : TableRow V) : Prop :=
  cfg.checkpointColumn.isSome ∧
    ∀ column ∈ cfg.checkpointOrder, (a column).IsValue ∧ a column = b column

/-- Either of the two has the key of the other. -/
theorem SameKey.symm {V τ : Type} {cfg : BigQuerySource V τ} {a b : TableRow V}
    (h : SameKey cfg a b) : SameKey cfg b a :=
  ⟨h.1, fun column hc => ⟨(h.2 column hc).2 ▸ (h.2 column hc).1, (h.2 column hc).2.symm⟩⟩

/-- **Keys are unique**: no two rows of the table have one. -/
def UniqueKeys {V τ : Type} (cfg : BigQuerySource V τ) (rows : List (TableRow V)) : Prop :=
  rows.Pairwise (fun a b => ¬ SameKey cfg a b)

/-- **The cursor of a row leads to all the rows that come after it.** -/
def Reaches {V τ : Type} (cfg : BigQuerySource V τ) (service : Service V) (table : Table V)
    (last : TableRow V) (remaining : List (TableRow V)) : Prop :=
  match cfg.checkpointColumn, cfg.checkpointTiebreakerColumn with
  | none, _ => True
  | some column, none =>
    cfg.get table last column = .null ∨ ((cfg.get table last column).IsValue
      ∧ service.accepts column (service.parameterType (cfg.get table last column)))
  | some column, some tiebreaker =>
    (cfg.get table last column).IsValue
      ∧ ((cfg.get table last tiebreaker).IsValue
        ∨ ∀ row ∈ remaining, row column ≠ last column)
      ∧ service.accepts column (service.parameterType (cfg.get table last column))
      ∧ service.accepts tiebreaker (service.parameterType (cfg.get table last tiebreaker))

/-- **When the resumption is complete.** -/
def ResumedRun.Resumable {V τ : Type} [LinearOrder V] {cfg : BigQuerySource V τ}
    {service : Service V} {table : Table V} (run : ResumedRun cfg service table) : Prop :=
  ∀ last ∈ run.last?, run.remaining ≠ [] → Reaches cfg service table last run.remaining

namespace ResumedRun

variable {V τ : Type} [LinearOrder V] {cfg : BigQuerySource V τ} {service : Service V}
  {table : Table V} (run : ResumedRun cfg service table)

/-- What the run has read up to where it stopped. -/
theorem hasRead : cfg.HasRead table run.done (cfg.readRows table (run.result.take run.stop) {}).1 :=
  (BigQuerySource.hasRead_nil.readRows _).1

/-- This is a first part of its result. -/
theorem done_initial : run.done <+: run.result :=
  (List.takeWhile_prefix _).trans (List.take_prefix _ _)

theorem done_append_rest : run.done ++ run.result.drop run.done.length = run.result :=
  (List.prefix_iff_eq_append.1 run.done_initial)

/-- The other run emits every row of its result of which the mapper makes a record. -/
theorem nextEmitted_eq : run.nextEmitted = run.nextResult.filter (cfg.keeps table) := by
  have hnil : cfg.HasRead table [] {} := BigQuerySource.hasRead_nil
  obtain ⟨hread, hall⟩ := hnil.readRows run.nextResult
  rw [hall run.completes] at hread
  exact hread.emitted

/-- **What is left is what the resumed run must emit.** -/
theorem complete_iff_subperm : run.Complete ↔ run.remaining.Subperm run.nextEmitted := by
  have hperm : ((table.rows.filter run.query.selects).filter (cfg.keeps table)).Perm
      (run.emitted ++ run.remaining) := by
    have hrows := (run.answers.rows run.accepted).symm.filter (cfg.keeps table)
    rw [← run.done_append_rest, List.filter_append] at hrows
    have hemitted : run.emitted = run.done.filter (cfg.keeps table) := run.hasRead.emitted
    rw [hemitted]
    exact hrows
  rw [Complete, hperm.subperm_right]
  exact List.subperm_append_left run.emitted

/-- **Every remaining row must be beyond the cursor**, and BigQuery must take the cursor. -/
theorem complete_iff : run.Complete ↔ run.remaining ≠ [] →
    run.nextQuery.Accepted service ∧ ∀ row ∈ run.remaining, run.nextQuery.selects row = true := by
  rw [run.complete_iff_subperm, run.nextEmitted_eq]
  by_cases haccepted : run.nextQuery.Accepted service
  · have hrows := run.nextAnswers.rows haccepted
    constructor
    · intro h _
      refine ⟨haccepted, fun row hrow => ?_⟩
      have hmem := hrows.mem_iff.1 (List.mem_filter.1 (h.subset hrow)).1
      exact (List.mem_filter.1 hmem).2
    · intro h
      have hall : run.remaining.filter run.nextQuery.selects = run.remaining := by
        refine List.filter_eq_self.2 (fun row hrow => ?_)
        exact (h (List.ne_nil_of_mem hrow)).2 row hrow
      have hsub : run.remaining.Subperm (table.rows.filter (cfg.keeps table)) := by
        have hresult : run.result.Subperm table.rows :=
          (run.answers.rows run.accepted).subperm.trans List.filter_sublist.subperm
        exact ((List.drop_sublist _ _).subperm.trans hresult).filter _
      rw [← hall]
      refine (hsub.filter _).trans ?_
      rw [List.filter_filter]
      refine List.Perm.subperm ?_
      refine List.Perm.trans ?_ (hrows.symm.filter _)
      rw [List.filter_filter]
      simp only [Bool.and_comm]
      exact List.Perm.refl _
  · rw [run.nextAnswers.rejected haccepted, List.filter_nil, List.subperm_nil]
    constructor
    · intro h hne
      exact absurd h hne
    · intro h
      by_contra hne
      exact haccepted (h hne).1

/-- What has been emitted comes before what is left, and differs from it in its key. -/
theorem before_remaining (hunique : UniqueKeys cfg table.rows) {last row : TableRow V}
    (hlast : last ∈ run.last?) (hrow : row ∈ run.remaining) :
    OrderLe cfg.checkpointOrder last row ∧ ¬ SameKey cfg last row := by
  have hmem : last ∈ run.done := (List.mem_filter.1 (List.mem_of_getLast? hlast)).1
  have hrow' : row ∈ run.result.drop run.done.length := (List.mem_filter.1 hrow).1
  constructor
  · have hsorted := run.answers.sorted
    rw [cfg.orderBy_of_buildQuery run.query_eq, ← run.done_append_rest] at hsorted
    exact ((List.pairwise_append.1 hsorted).2.2 last hmem row hrow').of_initial
      cfg.checkpointOrder_initial
  · have hrows : UniqueKeys cfg run.result := by
      have hperm := run.answers.rows run.accepted
      refine (hperm.pairwise_iff (fun h hs => h hs.symm)).2 ?_
      exact List.Pairwise.sublist List.filter_sublist hunique
    rw [UniqueKeys, ← run.done_append_rest] at hrows
    exact (List.pairwise_append.1 hrows).2.2 last hmem row hrow'

/-- Once a row has been emitted, the checkpoint has its cursor. -/
theorem latestCursor_of_last {last : TableRow V} (hlast : last ∈ run.last?) :
    (cfg.readRows table (run.result.take run.stop) {}).1.latestCursor run.resumeCursor
      = cfg.cursorOf table last := by
  have hread := run.hasRead
  have hmem : last ∈ run.done := (List.mem_filter.1 (List.mem_of_getLast? hlast)).1
  have hseen := hread.seen (List.ne_nil_of_mem hmem)
  rw [ReadState.latestCursor, if_neg (fun h => hseen.ne' h.1), hread.cursor,
    BigQuerySource.cursorAfter]
  show run.last?.bind _ = _
  rw [hlast]
  rfl

/-- Before that, the resumed run asks for what the run has asked for, or for everything. -/
theorem complete_of_nothing_emitted (hlast : run.last? = none) : run.Complete := by
  have hread := run.hasRead
  have hcursor : (cfg.readRows table (run.result.take run.stop) {}).1.lastCheckpointCursor
      = none := by
    rw [hread.cursor, BigQuerySource.cursorAfter]
    show run.last?.bind _ = _
    rw [hlast]
    rfl
  have hnext := run.nextQuery_eq
  rw [run.complete_iff]
  intro _
  unfold ReadState.latestCursor at hnext
  split at hnext
  · have hquery : run.nextQuery = run.query :=
      Except.ok.inj (hnext.symm.trans run.query_eq)
    rw [hquery]
    refine ⟨run.accepted, fun row hrow => ?_⟩
    have hresult : row ∈ run.result :=
      (List.drop_sublist _ _).subset (List.mem_filter.1 hrow).1
    exact (List.mem_filter.1 ((run.answers.rows run.accepted).mem_iff.1 hresult)).2
  · rw [hcursor, cfg.buildQuery_none] at hnext
    rw [← Except.ok.inj hnext]
    exact ⟨nofun, fun row _ => rfl⟩

/-- **The next query** takes its cursor from the last row that was emitted. -/
theorem condition_of_last {last : TableRow V} (hlast : last ∈ run.last?)
    (condition : Option (Condition V))
    (h : cfg.resumeCondition (cfg.cursorOf table last) = .ok condition) :
    run.nextQuery.condition = condition := by
  have hnext := run.nextQuery_eq
  rw [run.latestCursor_of_last hlast, BigQuerySource.buildQuery, h] at hnext
  rw [← Except.ok.inj hnext]

/-- The next query asks for what comes after a cursor. -/
theorem accepted_and_selects_iff {condition : Condition V}
    (h : run.nextQuery.condition = some condition) (hscalar : condition.IsScalar) :
    (run.nextQuery.Accepted service ∧ ∀ row ∈ run.remaining, run.nextQuery.selects row = true)
      ↔ (∀ comparison ∈ condition.comparisons,
          service.accepts comparison.1 (service.parameterType comparison.2))
        ∧ ∀ row ∈ run.remaining, condition.holds row = true := by
  unfold Query.Accepted Query.selects
  rw [h]
  simp [hscalar]

/-- Without a cursor it asks for every row. -/
theorem accepted_and_selects_of_none (h : run.nextQuery.condition = none) :
    run.nextQuery.Accepted service
      ∧ ∀ row ∈ run.remaining, run.nextQuery.selects row = true := by
  unfold Query.Accepted Query.selects
  rw [h]
  exact ⟨nofun, fun row _ => rfl⟩

/-- **A cursor of one column** leads on unless it is a `NaN`; without one, the run begins
anew. -/
theorem reaches_of_column (hunique : UniqueKeys cfg table.rows) {last : TableRow V}
    (hlast : last ∈ run.last?) (hne : run.remaining ≠ []) {column : String}
    (hcolumn : cfg.checkpointColumn = some column)
    (htiebreaker : cfg.checkpointTiebreakerColumn = none) :
    (run.nextQuery.Accepted service ∧ ∀ row ∈ run.remaining, run.nextQuery.selects row = true)
      ↔ Reaches cfg service table last run.remaining := by
  obtain ⟨first, hfirst⟩ := List.exists_mem_of_ne_nil _ hne
  have horder : cfg.checkpointOrder = [column] := by
    rw [BigQuerySource.checkpointOrder, hcolumn, htiebreaker]
    rfl
  have hcondition := fun condition => run.condition_of_last hlast condition
  unfold BigQuerySource.cursorOf at hcondition
  unfold Reaches
  rw [hcolumn, htiebreaker] at hcondition ⊢
  dsimp only at hcondition ⊢
  -- after a NULL there is no condition, and nothing is greater than a NaN
  cases hget : cfg.get table last column with
  | null =>
    rw [hget] at hcondition
    exact iff_of_true (run.accepted_and_selects_of_none (hcondition none rfl)) (.inl rfl)
  | nan =>
    rw [hget] at hcondition
    have hnext := hcondition (some (.after column .nan))
      (by unfold BigQuerySource.resumeCondition; rw [hcolumn, htiebreaker])
    rw [run.accepted_and_selects_iff hnext trivial]
    refine iff_of_false (fun h => ?_) ?_
    · have hholds := h.2 first hfirst
      rw [Condition.holds, Cell.gt_eq_false_of_not_isValue Cell.not_isValue_nan] at hholds
      cases hholds
    · rintro (h | ⟨⟨v, h⟩, -⟩) <;> cases h
  | value v =>
    rw [hget] at hcondition
    have hnext := hcondition (some (.after column (.value v)))
      (by unfold BigQuerySource.resumeCondition; rw [hcolumn, htiebreaker])
    have hvalue := cfg.eq_of_get_eq_value hget
    rw [run.accepted_and_selects_iff hnext trivial]
    have hholds : ∀ row ∈ run.remaining, (Condition.after column (.value v)).holds row = true := by
      intro row hrow
      obtain ⟨hle, hkey⟩ := run.before_remaining hunique hlast hrow
      rw [horder] at hle
      have hrank := hle.rank_le
      rw [hvalue] at hrank
      refine (Cell.gt_or_eq_of_rank_le hrank).resolve_right (fun heq => hkey ⟨?_, ?_⟩)
      · rw [hcolumn]
        rfl
      · rw [horder]
        intro name hname
        rw [List.mem_singleton.1 hname]
        exact ⟨⟨v, hvalue⟩, hvalue.trans heq.symm⟩
    constructor
    · rintro ⟨haccepts, -⟩
      exact .inr ⟨⟨v, rfl⟩, haccepts _ (List.mem_singleton_self _)⟩
    · rintro (h | ⟨-, haccepts⟩)
      · cases h
      · refine ⟨fun comparison hc => ?_, hholds⟩
        rw [List.mem_singleton.1 hc]
        exact haccepts

/-- **A composite cursor** leads on if its first part compares, and its second part does or is
not needed. -/
theorem reaches_of_composite (hunique : UniqueKeys cfg table.rows) {last : TableRow V}
    (hlast : last ∈ run.last?) (hne : run.remaining ≠ []) {column tiebreaker : String}
    (hcolumn : cfg.checkpointColumn = some column)
    (htiebreaker : cfg.checkpointTiebreakerColumn = some tiebreaker) :
    (run.nextQuery.Accepted service ∧ ∀ row ∈ run.remaining, run.nextQuery.selects row = true)
      ↔ Reaches cfg service table last run.remaining := by
  obtain ⟨first, hfirst⟩ := List.exists_mem_of_ne_nil _ hne
  have horder : cfg.checkpointOrder = [column, tiebreaker] := by
    rw [BigQuerySource.checkpointOrder, hcolumn, htiebreaker]
    rfl
  have hnext := run.condition_of_last hlast (some (.afterComposite column tiebreaker
      (cfg.get table last column) (cfg.get table last tiebreaker))) (by
    unfold BigQuerySource.cursorOf BigQuerySource.resumeCondition
    rw [hcolumn, htiebreaker])
  rw [run.accepted_and_selects_iff hnext trivial]
  have haccepts : (∀ comparison ∈ (Condition.afterComposite column tiebreaker
        (cfg.get table last column) (cfg.get table last tiebreaker)).comparisons,
        service.accepts comparison.1 (service.parameterType comparison.2))
      ↔ service.accepts column (service.parameterType (cfg.get table last column))
        ∧ service.accepts tiebreaker (service.parameterType (cfg.get table last tiebreaker)) := by
    simp [Condition.comparisons]
  rw [haccepts]
  unfold Reaches
  rw [hcolumn, htiebreaker]
  dsimp only [Condition.holds]
  by_cases hc : (cfg.get table last column).IsValue
  · rw [and_iff_right hc, and_comm]
    refine and_congr_left' ?_
    obtain ⟨v, hv⟩ := hc
    have hvalue := cfg.eq_of_get_eq_value hv
    rw [hv, hvalue]
    have hafter : ∀ row ∈ run.remaining,
        (row column).gt (.value v) = true ∨ row column = .value v := by
      intro row hrow
      have hle := (run.before_remaining hunique hlast hrow).1
      rw [horder] at hle
      have hrank := hle.rank_le
      rw [hvalue] at hrank
      exact Cell.gt_or_eq_of_rank_le hrank
    by_cases ht : (cfg.get table last tiebreaker).IsValue
    · refine iff_of_true (fun row hrow => ?_) (.inl ht)
      obtain ⟨w, hw⟩ := ht
      have htvalue := cfg.eq_of_get_eq_value hw
      rw [hw]
      rcases hafter row hrow with hgt | heq
      · rw [hgt]
        rfl
      · obtain ⟨hle, hkey⟩ := run.before_remaining hunique hlast hrow
        rw [horder] at hle
        -- equal in the first column, so the tiebreaker decides
        have hrank : (last tiebreaker).rank ≤ (row tiebreaker).rank := by
          rcases hle with hlt | ⟨-, hle⟩
          · rw [hvalue, heq] at hlt
            exact absurd hlt (lt_irrefl _)
          · exact hle.rank_le
        rw [htvalue] at hrank
        rcases Cell.gt_or_eq_of_rank_le hrank with hgt | hteq
        · rw [heq, hgt, Cell.eqv_value]
          simp
        · refine absurd ⟨?_, ?_⟩ hkey
          · rw [hcolumn]
            rfl
          · rw [horder]
            intro name hname
            rcases List.mem_pair.1 hname with rfl | rfl
            · exact ⟨⟨v, hvalue⟩, hvalue.trans heq.symm⟩
            · exact ⟨⟨w, htvalue⟩, htvalue.trans hteq.symm⟩
    · rw [or_iff_right ht]
      refine forall₂_congr (fun row hrow => ?_)
      rw [Cell.gt_eq_false_of_not_isValue ht, Bool.and_false, Bool.or_false]
      constructor
      · intro hgt heq
        rw [heq, Cell.gt_self] at hgt
        cases hgt
      · intro hrow'
        exact (hafter row hrow).resolve_right hrow'
  · refine iff_of_false (fun h => ?_) (fun h => hc h.1)
    have hholds := h.2 first hfirst
    rw [Cell.gt_eq_false_of_not_isValue hc, Cell.eqv_eq_false_of_not_isValue hc] at hholds
    cases hholds

end ResumedRun

/-- **The rows of a run and of its resumption are all the rows** exactly when the last row
emitted has a cursor that leads on to the others. -/
theorem complete_iff_resumable {V τ : Type} [LinearOrder V] {cfg : BigQuerySource V τ}
    {service : Service V} {table : Table V} (hunique : UniqueKeys cfg table.rows)
    (run : ResumedRun cfg service table) : run.Complete ↔ run.Resumable := by
  cases hlast : run.last? with
  | none =>
    refine iff_of_true (run.complete_of_nothing_emitted hlast) (fun last h => ?_)
    rw [hlast] at h
    cases h
  | some last =>
    have hresumable : run.Resumable
        ↔ (run.remaining ≠ [] → Reaches cfg service table last run.remaining) := by
      unfold ResumedRun.Resumable
      rw [hlast]
      simp
    rw [run.complete_iff, hresumable]
    refine imp_congr_right (fun hne => ?_)
    cases hcolumn : cfg.checkpointColumn with
    | none =>
      have hcursor : cfg.cursorOf table last = none :=
        BigQuerySource.cursorOf_of_checkpointColumn (by rw [hcolumn]; nofun)
      have hnext := run.condition_of_last hlast none (by rw [hcursor]; rfl)
      refine iff_of_true (run.accepted_and_selects_of_none hnext) ?_
      unfold Reaches
      rw [hcolumn]
      trivial
    | some column =>
      cases htiebreaker : cfg.checkpointTiebreakerColumn with
      | none => exact run.reaches_of_column hunique hlast hne hcolumn htiebreaker
      | some tiebreaker => exact run.reaches_of_composite hunique hlast hne hcolumn htiebreaker

/-! ## Events with a time and a number -/

/-- A source that reads events by their time and their number. -/
def eventSource (columns : List String) : BigQuerySource ℕ Unit where
  columns := columns
  orderBy := []
  checkpointColumn := some "ts"
  checkpointTiebreakerColumn := some "id"
  checkpointColumnIsUnique := false
  rowMapper := fun _ => .ok (some ())
  onRecordError := .failClosed
  tiebreaker_requires := fun _ => rfl
  tiebreaker_ne := by simp
  unique_or_tiebreaker := fun _ => .inl rfl
  not_both := by simp
  order_starts := fun h => absurd rfl h

/-- The columns hold integers, or strings. -/
def anyColumn : Service ℕ where
  pyType := fun _ => .int
  accepts := fun _ _ => True

def eventRow (ts id : Cell ℕ) : TableRow ℕ := fun column => if column = "ts" then ts else id

def datedEvents : Table ℕ where
  fields := ["ts", "id"]
  rows := [eventRow (.value 1) (.value 1), eventRow (.value 1) (.value 2),
    eventRow (.value 2) (.value 1)]

/-- A run that stops after its first event. -/
def datedRun : ResumedRun (eventSource []) anyColumn datedEvents where
  resumeCursor := none
  query := { selected := [], condition := none, orderBy := ["ts", "id"] }
  query_eq := rfl
  accepted := nofun
  result := datedEvents.rows
  answers :=
    { rows := fun _ => .refl _
      sorted := by simp [datedEvents, OrderLe, eventRow, Cell.rank]
      rejected := fun h => absurd nofun h }
  stop := 1
  nextQuery :=
    { selected := []
      condition := some (.afterComposite "ts" "id" (.value 1) (.value 1))
      orderBy := ["ts", "id"] }
  nextQuery_eq := rfl
  nextResult := [eventRow (.value 1) (.value 2), eventRow (.value 2) (.value 1)]
  nextAnswers :=
    { rows := fun _ => .refl _
      sorted := by simp [OrderLe, eventRow, Cell.rank]
      rejected := fun h => absurd (by
        rintro _ ⟨⟩
        exact ⟨trivial, fun _ _ => trivial⟩) h }
  completes := rfl

theorem uniqueKeys_datedEvents (columns : List String) :
    UniqueKeys (eventSource columns) datedEvents.rows := by
  simp [UniqueKeys, datedEvents, SameKey, BigQuerySource.checkpointOrder, eventSource, eventRow]

/-- The two other events are emitted by the run that resumes. -/
theorem complete_datedRun : datedRun.Complete := by
  refine (complete_iff_resumable (uniqueKeys_datedEvents []) datedRun).2 (fun last hlast _ => ?_)
  obtain rfl : eventRow (.value 1) (.value 1) = last := Option.some.inj hlast
  exact ⟨⟨1, rfl⟩, .inl ⟨1, rfl⟩, trivial, trivial⟩

/-- Two of the events have no time. -/
def undatedEvents : Table ℕ where
  fields := ["ts", "id"]
  rows := [eventRow .null (.value 1), eventRow .null (.value 2), eventRow (.value 2) (.value 1)]

/-- What is asked for after a cursor whose time is `NULL`. -/
def afterNull (columns : List String) : Query ℕ where
  selected := columns
  condition := some (.afterComposite "ts" "id" .null (.value 1))
  orderBy := ["ts", "id"]

/-- A run over events without a time that stops after its first. -/
def undatedRun : ResumedRun (eventSource []) anyColumn undatedEvents where
  resumeCursor := none
  query := { selected := [], condition := none, orderBy := ["ts", "id"] }
  query_eq := rfl
  accepted := nofun
  result := undatedEvents.rows
  answers :=
    { rows := fun _ => .refl _
      sorted := by
        have hnull : (Cell.null : Cell ℕ).rank < (Cell.value 2).rank := WithBot.bot_lt_coe _
        have hvalue : (Cell.value 1 : Cell ℕ).rank < (Cell.value 2).rank := by simp [Cell.rank]
        simp [undatedEvents, OrderLe, eventRow, hnull, hvalue]
      rejected := fun h => absurd nofun h }
  stop := 1
  nextQuery := afterNull []
  nextQuery_eq := rfl
  nextResult := []
  nextAnswers :=
    { rows := fun _ => .refl _
      sorted := .nil
      rejected := fun _ => rfl }
  completes := rfl

/-- A run that does not select the time of its events. -/
def unselectedRun : ResumedRun (eventSource ["id"]) anyColumn datedEvents where
  resumeCursor := none
  query := { selected := ["id"], condition := none, orderBy := ["ts", "id"] }
  query_eq := rfl
  accepted := nofun
  result := datedEvents.rows
  answers :=
    { rows := fun _ => .refl _
      sorted := by simp [datedEvents, OrderLe, eventRow, Cell.rank]
      rejected := fun h => absurd nofun h }
  stop := 1
  nextQuery := afterNull ["id"]
  nextQuery_eq := rfl
  nextResult := []
  nextAnswers :=
    { rows := fun _ => .refl _
      sorted := .nil
      rejected := fun _ => rfl }
  completes := rfl

/-- The keys are unique, and yet two events are never emitted. -/
theorem not_complete_afterNull :
    (UniqueKeys (eventSource []) undatedEvents.rows ∧ ¬ undatedRun.Complete)
      ∧ UniqueKeys (eventSource ["id"]) datedEvents.rows ∧ ¬ unselectedRun.Complete := by
  refine ⟨⟨?_, fun h => ?_⟩, uniqueKeys_datedEvents _, fun h => ?_⟩
  · simp [UniqueKeys, undatedEvents, SameKey, BigQuerySource.checkpointOrder, eventSource,
      eventRow, Cell.IsValue]
  · have hle : 3 ≤ 1 := h.length_le
    omega
  · have hle : 3 ≤ 1 := h.length_le
    omega

end BigQuerySources

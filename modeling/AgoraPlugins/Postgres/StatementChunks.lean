import AgoraPlugins.Postgres.Identifiers
import AgoraPlugins.Postgres.WritePlan

/-!
# The statements of a batch

A batch goes to the database in statements: its rows are cut into chunks, each chunk is one
`INSERT` with a placeholder for every column of every row, and its values are sent beside it in
one flat list. How many rows a chunk has, how many placeholders the text has and how many values
are sent is computed in three places, and the driver refuses a statement where the last two differ.

They agree for every batch, and a statement has no more parameters than the setting allows unless
one row alone has more (`statements_of_batch`): a row is never split, so it then makes a statement
of its own.

The driver looks for placeholders in the whole text, and between quotes as well. A name with a
percent sign, which a delimited identifier may have, is therefore not counted on here.
-/

open Identifiers

/-- **`PostgresWritePlanner`.** -/
structure PostgresWritePlanner where
  table : Identifier
  conflictKeys : List Identifier
  upsert : Bool
  allowQuotedIdentifiers : Bool

namespace WriteConfig

/-! ## The text of a statement -/

/-- `", ".join(...)`. -/
def commaSeparated (parts : List Text) : Text := [',', ' '].intercalate parts

/-- `'(%s, %s, ...)'`. -/
def rowPlaceholder (columnCount : ℕ) : Text :=
  '(' :: commaSeparated (List.replicate columnCount ['%', 's']) ++ [')']

/-- The list of rows in a statement. -/
def valList (columnCount rowCount : ℕ) : Text :=
  commaSeparated (List.replicate rowCount (rowPlaceholder columnCount))

/-- A key that is a string is not a column that is a `QuotedIdentifier`, whatever they name. -/
def sameIdentifier : Identifier → Identifier → Bool
  | .text s, .text t => s = t
  | .quoted p, .quoted q => p.parts = q.parts
  | _, _ => false

variable (repr : Identifier → String) (planner : PostgresWritePlanner)

/-- `_quote_identifier` of a column. -/
def quoteColumn (column : Identifier) : Except ValueError Text :=
  quoteIdentifier repr column false planner.allowQuotedIdentifiers

/-- `'INSERT INTO table (column, ...) VALUES '`. -/
def insertInto (quotedTable : Text) (colList : List Text) : Text :=
  "INSERT INTO ".toList ++ quotedTable ++ " (".toList ++ commaSeparated colList
    ++ ") VALUES ".toList

/-- The assignment of a column. -/
def assignment (column : Identifier) : Except ValueError Text := do
  let left ← quoteColumn repr planner column
  let right ← quoteColumn repr planner column
  pure (left ++ " = EXCLUDED.".toList ++ right)

/-- **`build_batch_upsert_sql`.** -/
def buildBatchUpsertSql (columns : List Identifier) (rowCount : ℕ) : Except ValueError Text := do
  let quotedTable ← quoteIdentifier repr planner.table true planner.allowQuotedIdentifiers
  let colList ← columns.mapM (quoteColumn repr planner)
  let conflictCols ← planner.conflictKeys.mapM (quoteColumn repr planner)
  let updateSet ← (columns.filter (fun column =>
    !planner.conflictKeys.any (sameIdentifier column))).mapM (assignment repr planner)
  let insert := insertInto quotedTable colList ++ valList columns.length rowCount
    ++ " ON CONFLICT (".toList ++ commaSeparated conflictCols ++ ") DO ".toList
  pure (insert ++ if planner.upsert ∧ commaSeparated updateSet ≠ []
    then "UPDATE SET ".toList ++ commaSeparated updateSet else "NOTHING".toList)

/-- **The placeholders that the driver finds in a text**, where `%%` is a percent sign, and any
other character after one is an error. -/
def placeholders : Text → Option ℕ
  | [] => some 0
  | '%' :: '%' :: rest => placeholders rest
  | '%' :: c :: rest =>
    if c = 's' ∨ c = 'b' ∨ c = 't' then (placeholders rest).map (· + 1) else none
  | ['%'] => none
  | _ :: rest => placeholders rest

example : placeholders "(%s, 5%%)".toList = some 1 := by
  simp [placeholders]

/-! ## The values of a statement -/

variable {κ ν : Type} [DecidableEq κ] (reprColumns : List κ → String)

/-- The values of a row, column by column. -/
def rowValues (columns : List κ) (row : Row κ ν) : List (Option ν) :=
  columns.map (fun column => (row.lookup column).getD none)

/-- The values of a row that has the columns. -/
def flattenRow (columns : List κ) (row : Row κ ν) : Except ValueError (List (Option ν)) :=
  if row.keys.toFinset = columns.toFinset then .ok (rowValues columns row)
  else .error ⟨"PostgresSink rows in the same batch must have identical column sets. Expected "
    ++ reprColumns columns ++ ", got " ++ reprColumns row.keys ++ "."⟩

/-- **`flatten_rows`.** -/
def flattenRows (rows : List (Row κ ν)) (columns : List κ) :
    Except ValueError (List (Option ν)) :=
  (rows.mapM (flattenRow reprColumns columns)).map List.flatten

/-- **`execute_sql_batch`**: the statements of a batch, each with its values. -/
def sqlBatch (cfg : WriteConfig Text ν) (reprColumns : List Text → String)
    (rows : List (Row Text ν)) (columns : List Text) :
    Except ValueError (List (Text × List (Option ν))) :=
  (cfg.iterSqlChunks rows columns).mapM (fun chunk => do
    let sql ← buildBatchUpsertSql repr planner (columns.map .text) chunk.length
    let params ← flattenRows reprColumns chunk columns
    pure (sql, params))

/-! ## Counting placeholders -/

/-- A text that has so many placeholders, whatever comes after it. -/
def Counts (s : Text) (n : ℕ) : Prop :=
  ∀ t, placeholders (s ++ t) = (placeholders t).map (· + n)

theorem Counts.placeholders_eq {s : Text} {n : ℕ} (h : Counts s n) : placeholders s = some n := by
  have hnil := h []
  rw [List.append_nil] at hnil
  simpa [placeholders] using hnil

theorem Counts.append {s t : Text} {m n : ℕ} (hs : Counts s m) (ht : Counts t n) :
    Counts (s ++ t) (m + n) := by
  intro u
  rw [List.append_assoc, hs, ht, Option.map_map]
  congr 1
  funext k
  show k + n + m = k + (m + n)
  omega

/-- A text without a percent sign. -/
theorem counts_zero : ∀ {s : Text}, '%' ∉ s → Counts s 0
  | [], _, t => by simp
  | c :: s, h, t => by
    rw [List.mem_cons, not_or] at h
    have hc : c ≠ '%' := fun heq => h.1 heq.symm
    rw [List.cons_append, ← counts_zero h.2 t, placeholders]
    · intro rest hpercent
      exact absurd hpercent hc
    · intro d rest hpercent
      exact absurd hpercent hc
    · intro hpercent
      exact absurd hpercent hc

theorem counts_placeholder : Counts ['%', 's'] 1 := by
  intro t
  show placeholders ('%' :: 's' :: t) = _
  simp [placeholders]

/-- Parts with as many placeholders each. -/
theorem counts_commaSeparated {n : ℕ} : ∀ {parts : List Text}, (∀ p ∈ parts, Counts p n) →
    Counts (commaSeparated parts) (parts.length * n)
  | [], _ => by simpa [commaSeparated] using counts_zero (s := []) (by simp)
  | [p], h => by simpa [commaSeparated] using h p (by simp)
  | p :: q :: parts, h => by
    have hp : Counts p n := h p (by simp)
    have hrest : Counts (commaSeparated (q :: parts)) ((q :: parts).length * n) :=
      counts_commaSeparated (fun p' hp' => h p' (List.mem_cons_of_mem _ hp'))
    have hcomma : Counts [',', ' '] 0 := counts_zero (by decide)
    have hall := (hp.append hcomma).append hrest
    have hsplit : commaSeparated (p :: q :: parts)
        = p ++ [',', ' '] ++ commaSeparated (q :: parts) := List.intercalate_cons_cons
    have hlength : (p :: q :: parts).length * n = n + 0 + (q :: parts).length * n := by
      rw [List.length_cons, Nat.succ_mul, Nat.add_zero, Nat.add_comm]
    rw [hsplit, hlength]
    exact hall

theorem counts_rowPlaceholder (columnCount : ℕ) :
    Counts (rowPlaceholder columnCount) columnCount := by
  have hopen : Counts ['('] 0 := counts_zero (by decide)
  have hclose : Counts [')'] 0 := counts_zero (by decide)
  have hinner : Counts (commaSeparated (List.replicate columnCount ['%', 's'])) columnCount := by
    have hparts : ∀ p ∈ List.replicate columnCount ['%', 's'], Counts p 1 := by
      intro p hp
      rw [List.eq_of_mem_replicate hp]
      exact counts_placeholder
    have hcounts := counts_commaSeparated hparts
    rwa [List.length_replicate, Nat.mul_one] at hcounts
  have hall := (hopen.append hinner).append hclose
  rwa [Nat.zero_add, Nat.add_zero] at hall

/-- **The list of rows** has a placeholder for every column of every row. -/
theorem counts_valList (columnCount rowCount : ℕ) :
    Counts (valList columnCount rowCount) (rowCount * columnCount) := by
  have hparts : ∀ p ∈ List.replicate rowCount (rowPlaceholder columnCount),
      Counts p columnCount := by
    intro p hp
    rw [List.eq_of_mem_replicate hp]
    exact counts_rowPlaceholder columnCount
  have hcounts := counts_commaSeparated hparts
  rwa [List.length_replicate] at hcounts

/-- No percent sign in a name. -/
def NoPercent : Identifier → Prop
  | .text s => '%' ∉ s
  | .quoted q => ∀ p ∈ q.parts, '%' ∉ p

theorem notMem_intercalate {c : Char} {sep : Text} (hsep : c ∉ sep) :
    ∀ {parts : List Text}, (∀ p ∈ parts, c ∉ p) → c ∉ sep.intercalate parts
  | [], _ => by simp
  | [p], h => by simpa using h p (by simp)
  | p :: q :: parts, h => by
    rw [List.intercalate_cons_cons, List.mem_append, List.mem_append]
    rintro ((hmem | hmem) | hmem)
    · exact h p (by simp) hmem
    · exact hsep hmem
    · exact notMem_intercalate hsep (fun p' hp' => h p' (List.mem_cons_of_mem _ hp')) hmem

theorem notMem_delimit {part : Text} : '%' ∉ PostgresLexer.delimit part ↔ '%' ∉ part := by
  simp only [PostgresLexer.delimit, PostgresLexer.double, List.cons_append, List.mem_cons,
    List.mem_append, List.mem_flatMap, List.not_mem_nil, or_false]
  refine not_congr ⟨?_, fun hmem => .inr (.inl ⟨'%', hmem, by simp⟩)⟩
  rintro (hmem | ⟨c, hc, hmem⟩ | hmem)
  · cases hmem
  · split at hmem
    next => simp at hmem
    next =>
      rw [List.mem_singleton] at hmem
      exact hmem ▸ hc
  · cases hmem

variable {repr} {planner}

/-- **A quoted name has a percent sign only if the name has.** -/
theorem notMem_quoteIdentifier {identifier : Identifier} {allowPath allowQuoted : Bool} {out : Text}
    (h : quoteIdentifier repr identifier allowPath allowQuoted = .ok out)
    (hpercent : NoPercent identifier) : '%' ∉ out := by
  obtain ⟨parts, hparts, rfl⟩ := quoteIdentifier_eq_ok_iff.1 h
  have hspelled : ∀ {s part : Text}, SpelledPart allowQuoted s part → '%' ∉ s → '%' ∉ part := by
    intro s part hs hmem
    cases hs with
    | plain _ => exact hmem
    | delimited _ _ => exact notMem_delimit.1 hmem
  have hall : ∀ part ∈ parts, '%' ∉ part := by
    cases identifier with
    | text s =>
      have hs : '%' ∉ s := hpercent
      cases identifierParts_text_iff.1 hparts with
      | one hpart => simpa using hspelled hpart hs
      | path _ hschema htable =>
        simp only [List.mem_append, List.mem_cons, not_or] at hs
        simpa using ⟨hspelled hschema hs.1, hspelled htable hs.2.2⟩
    | quoted q =>
      obtain ⟨_, rfl⟩ := identifierParts_quoted_iff.1 hparts
      exact hpercent
  refine notMem_intercalate (by decide) ?_
  simpa [notMem_delimit] using hall

theorem notMem_commaSeparated {f : Identifier → Except ValueError Text}
    (hf : ∀ i out, f i = .ok out → NoPercent i → '%' ∉ out) {names : List Identifier}
    {parts : List Text} (h : names.mapM f = .ok parts) (hnames : ∀ i ∈ names, NoPercent i) :
    '%' ∉ commaSeparated parts := by
  refine notMem_intercalate (by decide) (fun p hp => ?_)
  obtain ⟨i, hi, hfi⟩ := Fallible.exists_of_mem_of_mapM_eq_ok h p hp
  exact hf i p hfi (hnames i hi)

theorem notMem_assignment (i : Identifier) (out : Text) (h : assignment repr planner i = .ok out)
    (hi : NoPercent i) : '%' ∉ out := by
  obtain ⟨left, hleft, h⟩ := Fallible.bind_eq_ok_iff.1 h
  obtain ⟨right, hright, h⟩ := Fallible.bind_eq_ok_iff.1 h
  cases h
  have hleft' := notMem_quoteIdentifier hleft hi
  have hright' := notMem_quoteIdentifier hright hi
  simp only [List.mem_append, not_or]
  exact ⟨⟨hleft', by decide⟩, hright'⟩

theorem notMem_insertInto {quotedTable : Text} {colList : List Text} (htable : '%' ∉ quotedTable)
    (hcolList : '%' ∉ commaSeparated colList) : '%' ∉ insertInto quotedTable colList := by
  have hinsert : '%' ∉ "INSERT INTO ".toList := by decide
  have hopen : '%' ∉ " (".toList := by decide
  have hvalues : '%' ∉ ") VALUES ".toList := by decide
  unfold insertInto
  simp only [List.mem_append, not_or]
  exact ⟨⟨⟨⟨hinsert, htable⟩, hopen⟩, hcolList⟩, hvalues⟩

/-- **The text of a statement**: the columns in order, the list of rows, and no percent sign but
there. -/
theorem buildBatchUpsertSql_spec {columns : List Identifier} {rowCount : ℕ} {sql : Text}
    (h : buildBatchUpsertSql repr planner columns rowCount = .ok sql) :
    ∃ quotedTable colList after,
      quoteIdentifier repr planner.table true planner.allowQuotedIdentifiers = .ok quotedTable
      ∧ List.Forall₂ (fun column name => quoteColumn repr planner column = .ok name)
        columns colList
      ∧ sql = insertInto quotedTable colList
        ++ (valList columns.length rowCount ++ (" ON CONFLICT (".toList ++ after))
      ∧ ((∀ i ∈ planner.table :: (columns ++ planner.conflictKeys), NoPercent i) →
        '%' ∉ insertInto quotedTable colList ∧ '%' ∉ " ON CONFLICT (".toList ++ after) := by
  obtain ⟨quotedTable, htable, h⟩ := Fallible.bind_eq_ok_iff.1 h
  obtain ⟨colList, hcolList, h⟩ := Fallible.bind_eq_ok_iff.1 h
  obtain ⟨conflictCols, hconflictCols, h⟩ := Fallible.bind_eq_ok_iff.1 h
  obtain ⟨updateSet, hupdateSet, h⟩ := Fallible.bind_eq_ok_iff.1 h
  cases h
  refine ⟨quotedTable, colList, commaSeparated conflictCols
    ++ (") DO ".toList ++ if planner.upsert ∧ commaSeparated updateSet ≠ []
      then "UPDATE SET ".toList ++ commaSeparated updateSet else "NOTHING".toList),
    htable, Fallible.mapM_eq_ok_iff.1 hcolList, ?_, ?_⟩
  · simp only [List.append_assoc]
  intro hnames
  simp only [List.forall_mem_cons, List.forall_mem_append] at hnames
  obtain ⟨htableName, hcolumns, hkeys⟩ := hnames
  have hquote : ∀ i out, quoteColumn repr planner i = .ok out → NoPercent i → '%' ∉ out :=
    fun i out hi => notMem_quoteIdentifier hi
  have htable' := notMem_quoteIdentifier htable htableName
  have hcolList' := notMem_commaSeparated hquote hcolList hcolumns
  have hconflictCols' := notMem_commaSeparated hquote hconflictCols hkeys
  have hupdateSet' := notMem_commaSeparated notMem_assignment hupdateSet
    (fun i hi => hcolumns i (List.mem_of_mem_filter hi))
  refine ⟨notMem_insertInto htable' hcolList', ?_⟩
  · simp only [List.mem_append, not_or]
    refine ⟨by decide, hconflictCols', by decide, ?_⟩
    split
    · simp only [List.mem_append, not_or]
      exact ⟨by decide, hupdateSet'⟩
    · decide

theorem placeholders_buildBatchUpsertSql {columns : List Identifier} {rowCount : ℕ} {sql : Text}
    (h : buildBatchUpsertSql repr planner columns rowCount = .ok sql)
    (hnames : ∀ i ∈ planner.table :: (columns ++ planner.conflictKeys), NoPercent i) :
    placeholders sql = some (rowCount * columns.length) := by
  obtain ⟨quotedTable, colList, after, _, _, rfl, hplain⟩ := buildBatchUpsertSql_spec h
  obtain ⟨hbefore, hafter⟩ := hplain hnames
  have hcounts := (counts_zero hbefore).append
    ((counts_valList columns.length rowCount).append (counts_zero hafter))
  rw [Nat.zero_add, Nat.add_zero] at hcounts
  exact hcounts.placeholders_eq

/-! ## The chunks of a batch -/

variable {reprColumns}

/-- **Rows with the columns of the batch are flattened**, one after the other. -/
theorem flattenRows_eq {rows : List (Row κ ν)} {columns : List κ}
    (h : ∀ row ∈ rows, row.keys.toFinset = columns.toFinset) :
    flattenRows reprColumns rows columns = .ok (rows.flatMap (rowValues columns)) := by
  have hrows : rows.mapM (flattenRow reprColumns columns) = .ok (rows.map (rowValues columns)) := by
    rw [Fallible.mapM_eq_ok_iff, List.forall₂_map_right_iff, List.forall₂_same]
    intro row hrow
    exact if_pos (h row hrow)
  unfold flattenRows
  rw [hrows]
  rfl

omit [DecidableEq κ] in
theorem length_flatMap_rowValues [DecidableEq κ] (columns : List κ) (rows : List (Row κ ν)) :
    (rows.flatMap (rowValues columns)).length = rows.length * columns.length := by
  induction rows with
  | nil => simp
  | cons row rows ih =>
    rw [List.flatMap_cons, List.length_append, ih, List.length_cons, Nat.succ_mul, Nat.add_comm]
    simp [rowValues]

variable {cfg : WriteConfig κ ν}

omit [DecidableEq κ] in
/-- **A full chunk** has no more parameters than allowed, or is one row. -/
theorem statementRowLimit_mul_le (columnCount : ℕ) :
    cfg.statementRowLimit columnCount * columnCount
      ≤ max cfg.maxParametersPerStatement columnCount := by
  have hparams : max 1 (cfg.maxParametersPerStatement / columnCount) * columnCount
      ≤ max cfg.maxParametersPerStatement columnCount := by
    have hdiv := Nat.div_mul_le_self cfg.maxParametersPerStatement columnCount
    rcases Nat.le_total (cfg.maxParametersPerStatement / columnCount) 1 with h | h
    · rw [max_eq_left h, Nat.one_mul]
      exact le_max_right _ _
    · rw [max_eq_right h]
      exact hdiv.trans (le_max_left _ _)
  unfold statementRowLimit
  split
  next h => simp [h]
  next =>
    dsimp only
    split
    next => exact hparams
    next maxRows _ =>
      refine (Nat.mul_le_mul_right columnCount ?_).trans hparams
      exact max_le (le_max_left _ _) (min_le_right _ _)

omit [DecidableEq κ] in
/-- **The chunks of a batch** are not empty, and none has more rows than the limit. -/
theorem mem_iterSqlChunks {rows chunk : List (Row κ ν)} {columns : List κ}
    (h : chunk ∈ cfg.iterSqlChunks rows columns) :
    chunk ≠ [] ∧ chunk.length ≤ cfg.statementRowLimit columns.length := by
  unfold iterSqlChunks at h
  obtain ⟨start, hstart, rfl⟩ := List.mem_map.1 h
  obtain ⟨i, hi, rfl⟩ := List.mem_range'.1 hstart
  have hpos := @statementRowLimit_pos κ ν cfg columns.length
  have hlt : cfg.statementRowLimit columns.length * i < rows.length := by
    have hdiv := (Nat.lt_div_iff_mul_lt hpos).1 hi
    rw [Nat.mul_comm] at hdiv
    omega
  refine ⟨?_, List.length_take_le _ _⟩
  intro hnil
  have hlength := congrArg List.length hnil
  simp only [List.length_take, List.length_drop, List.length_nil] at hlength
  omega

/-! ## The statements -/

/-- **A statement of a chunk.** Its text names the columns, in order, and then has a list of rows
for the chunk, with a placeholder for every value; in the whole text there are no others, unless a
name has a percent sign. The values are those of the rows in the order of the columns. There are
no more than allowed, or they are those of one row. -/
structure StatementOf (repr : Identifier → String) (cfg : WriteConfig Text ν)
    (planner : PostgresWritePlanner) (columns : List Text) (chunk : List (Row Text ν))
    (statement : Text × List (Option ν)) : Prop where
  nonempty : chunk ≠ []
  text : ∃ quotedTable colList after,
    quoteIdentifier repr planner.table true planner.allowQuotedIdentifiers = .ok quotedTable
    ∧ List.Forall₂ (fun column name => quoteColumn repr planner (.text column) = .ok name)
      columns colList
    ∧ statement.1 = insertInto quotedTable colList
      ++ (valList columns.length chunk.length ++ (" ON CONFLICT (".toList ++ after))
  values : statement.2 = chunk.flatMap (rowValues columns)
  rows_placeholders : placeholders (valList columns.length chunk.length) = some statement.2.length
  text_placeholders : (∀ i ∈ planner.table :: (columns.map .text ++ planner.conflictKeys),
    NoPercent i) → placeholders statement.1 = some statement.2.length
  allowed : statement.2.length ≤ cfg.maxParametersPerStatement
    ∨ chunk.length = 1 ∧ cfg.maxParametersPerStatement < columns.length
  exceeds_iff : cfg.maxParametersPerStatement < statement.2.length
    ↔ cfg.maxParametersPerStatement < columns.length

variable {cfg : WriteConfig Text ν} {columns : List Text} {chunk rows : List (Row Text ν)}

/-- How many parameters a chunk of some rows may have. -/
theorem length_mul_le_iff {parameters columnCount rowCount : ℕ} (hpos : 0 < rowCount)
    (hle : rowCount * columnCount ≤ max parameters columnCount) :
    (rowCount * columnCount ≤ parameters ∨ rowCount = 1 ∧ parameters < columnCount)
      ∧ (parameters < rowCount * columnCount ↔ parameters < columnCount) := by
  have hone : columnCount ≤ rowCount * columnCount := Nat.le_mul_of_pos_left columnCount hpos
  rcases Nat.lt_or_ge parameters columnCount with h | h
  · rw [max_eq_right h.le] at hle
    have heq : rowCount * columnCount = 1 * columnCount := by omega
    have hrow : rowCount = 1 := Nat.eq_of_mul_eq_mul_right (Nat.zero_lt_of_lt h) heq
    exact ⟨.inr ⟨hrow, h⟩, fun _ => h, fun _ => h.trans_le hone⟩
  · rw [max_eq_left h] at hle
    exact ⟨.inl hle, fun hlt => by omega, fun hlt => by omega⟩

theorem statementOf_chunk (hchunk : chunk ∈ cfg.iterSqlChunks rows columns) {sql : Text}
    (hsql : buildBatchUpsertSql repr planner (columns.map .text) chunk.length = .ok sql) :
    StatementOf repr cfg planner columns chunk (sql, chunk.flatMap (rowValues columns)) := by
  obtain ⟨hne, hlimit⟩ := mem_iterSqlChunks hchunk
  have hlength := length_flatMap_rowValues columns chunk
  have hcolumns : (columns.map Identifier.text).length = columns.length := List.length_map _
  have hle : chunk.length * columns.length ≤ max cfg.maxParametersPerStatement columns.length :=
    (Nat.mul_le_mul_right _ hlimit).trans (statementRowLimit_mul_le columns.length)
  obtain ⟨hallowed, hexceeds⟩ := length_mul_le_iff (List.length_pos_iff.2 hne) hle
  rw [← hlength] at hallowed hexceeds
  obtain ⟨quotedTable, colList, after, htable, hcolList, htext, _⟩ := buildBatchUpsertSql_spec hsql
  rw [hcolumns] at htext
  rw [List.forall₂_map_left_iff] at hcolList
  refine ⟨hne, ⟨quotedTable, colList, after, htable, hcolList, htext⟩, rfl, ?_, fun hnames => ?_,
    hallowed, hexceeds⟩
  · rw [hlength]
    exact (counts_valList columns.length chunk.length).placeholders_eq
  · rw [hlength, ← hcolumns]
    exact placeholders_buildBatchUpsertSql hsql hnames

/-- **The statements of a batch.** The rows have the columns of the batch. The chunks make up the
rows, in order; every one is flattened, and each statement fits its chunk. -/
theorem statements_of_batch (hrows : ∀ row ∈ rows, row.keys.toFinset = columns.toFinset)
    (repr : Identifier → String) (reprColumns : List Text → String)
    (planner : PostgresWritePlanner) :
    (cfg.iterSqlChunks rows columns).flatten = rows
      ∧ (∀ chunk ∈ cfg.iterSqlChunks rows columns,
        flattenRows reprColumns chunk columns = .ok (chunk.flatMap (rowValues columns)))
      ∧ ∀ statements, sqlBatch repr planner cfg reprColumns rows columns = .ok statements →
        List.Forall₂ (StatementOf repr cfg planner columns) (cfg.iterSqlChunks rows columns)
          statements := by
  have hflatten : (cfg.iterSqlChunks rows columns).flatten = rows :=
    flatten_iterSqlChunks rows columns
  have hmem : ∀ chunk ∈ cfg.iterSqlChunks rows columns,
      ∀ row ∈ chunk, row.keys.toFinset = columns.toFinset := by
    intro chunk hchunk row hrow
    refine hrows row ?_
    rw [← hflatten]
    exact List.mem_flatten.2 ⟨chunk, hchunk, hrow⟩
  refine ⟨hflatten, fun chunk hchunk => flattenRows_eq (hmem chunk hchunk), fun statements h => ?_⟩
  have hall := (List.forall₂_and_left _ _).2
    ⟨fun chunk hchunk => hchunk, Fallible.mapM_eq_ok_iff.1 h⟩
  refine hall.imp (fun chunk statement hstatement => ?_)
  obtain ⟨hchunk, hstatement⟩ := hstatement
  obtain ⟨sql, hsql, hstatement⟩ := Fallible.bind_eq_ok_iff.1 hstatement
  obtain ⟨params, hparams, hstatement⟩ := Fallible.bind_eq_ok_iff.1 hstatement
  rw [flattenRows_eq (hmem chunk hchunk)] at hparams
  cases hparams
  cases hstatement
  exact statementOf_chunk hchunk hsql

/-! ## Running it -/

/-- A writer that allows two parameters. -/
def twoParameters : WriteConfig Text ℕ where
  conflictKeys := ["id".toList]
  maxParametersPerStatement := 2

def accountPlanner : PostgresWritePlanner where
  table := .text "accounts".toList
  conflictKeys := [.text "id".toList]
  upsert := true
  allowQuotedIdentifiers := false

/-- A row with two columns. -/
def accountRow (id balance : ℕ) : Row Text ℕ :=
  (AList.insert "id".toList (some id) ∅).insert "balance".toList (some balance)

/-- Two rows make two statements. -/
theorem statements_of_accounts : ∃ statements,
    sqlBatch (fun _ => "") accountPlanner twoParameters (fun _ => "")
        [accountRow 1 10, accountRow 2 20] ["id".toList, "balance".toList] = .ok statements
      ∧ statements.length = 2
      ∧ List.Forall₂ (StatementOf (fun _ => "") twoParameters accountPlanner
          ["id".toList, "balance".toList])
        (twoParameters.iterSqlChunks [accountRow 1 10, accountRow 2 20]
          ["id".toList, "balance".toList]) statements := by
  have hrows : ∀ row ∈ [accountRow 1 10, accountRow 2 20],
      row.keys.toFinset = ["id".toList, "balance".toList].toFinset := by
    decide
  obtain ⟨_, _, hstatements⟩ := @statements_of_batch ℕ twoParameters _ _ hrows (fun _ => "")
    (fun _ => "") accountPlanner
  have hok : ∃ statements, sqlBatch (fun _ => "") accountPlanner twoParameters (fun _ => "")
      [accountRow 1 10, accountRow 2 20] ["id".toList, "balance".toList] = .ok statements
      ∧ statements.length = 2 := ⟨_, rfl, rfl⟩
  obtain ⟨statements, hok, hlength⟩ := hok
  exact ⟨statements, hok, hlength, hstatements statements hok⟩

/-- A row with three columns. -/
def ownedRow : Row Text ℕ := (accountRow 1 10).insert "owner".toList (some 7)

/-- **A row with more columns than parameters are allowed** is sent all the same. -/
theorem parameters_ownedRow_ne :
    ¬ ∀ (cfg : WriteConfig Text ℕ) (rows : List (Row Text ℕ)) (columns : List Text),
      0 < cfg.maxParametersPerStatement → (∀ n ∈ cfg.maxRowsPerStatement, 0 < n) → rows ≠ [] →
      (∀ row ∈ rows, row.keys.toFinset = columns.toFinset) →
      ∀ statements, sqlBatch (fun _ => "") accountPlanner cfg (fun _ => "") rows columns
          = .ok statements →
        ∀ statement ∈ statements, statement.2.length ≤ cfg.maxParametersPerStatement := by
  intro hall
  have hok : ∃ statement, sqlBatch (fun _ => "") accountPlanner twoParameters (fun _ => "")
      [ownedRow] ["id".toList, "balance".toList, "owner".toList] = .ok [statement]
      ∧ statement.2.length = 3 := ⟨_, rfl, rfl⟩
  obtain ⟨statement, hok, hlength⟩ := hok
  have hle := hall twoParameters [ownedRow] ["id".toList, "balance".toList, "owner".toList]
    (by decide) (by rintro n ⟨⟩) (List.cons_ne_nil _ _) (by decide) [statement] hok statement
    List.mem_cons_self
  rw [hlength] at hle
  revert hle
  decide

end WriteConfig

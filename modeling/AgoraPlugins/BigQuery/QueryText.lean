import AgoraPlugins.Dict
import AgoraPlugins.Fallible
import AgoraPlugins.GoogleSqlLexer
import AgoraPlugins.Kafka.ProtoTokens
import AgoraPlugins.Reply

/-!
# The text of a BigQuery query

A source reads a table with a query that is put together as a text: the names of columns are written
as they are, and the name of the table between backticks. The former are checked against a pattern,
and of the latter it is only asked that it has no backtick in it and is not blank.

The pattern also matches a name with a line break at its end, which is no part of an identifier, and
the reserved words; and a backslash between backticks begins an escape sequence. So the text has the
tokens that are meant exactly where the table has no backslash, nor a line break that does not stand
for itself, and no column that is named has a line break at its end or is a reserved word
(`lexes_iff`).
-/

open GoogleSql

namespace BigQueryQueries

/-! ## The source -/

/-- The arguments of a `BigQuerySource` that its queries are made of. -/
structure SourceArguments (P : Type) where
  table : Option String := none
  query : Option String := none
  queryParameters : Dict String P := ∅
  columns : List String := []
  orderBy : List String := []
  checkpointColumn : Option String := none
  checkpointTiebreakerColumn : Option String := none
  checkpointColumnIsUnique : Bool := false
  batchSize : ℤ := 500

/-- Whether the source reads a table or has a query of its own. -/
inductive SourceMode where
  | table (table : String)
  | query (query : String)

/-- **`BigQuerySourceQueryRuntime`.** -/
structure QueryRuntime (P : Type) where
  mode : SourceMode
  queryParameters : Dict String P
  columns : List String
  orderBy : List String
  checkpointColumn : Option String
  checkpointTiebreakerColumn : Option String
  supportsCheckpoint : Bool

def valueError (text : String) : Exc := .exception "ValueError" text

/-- What `$` may stand before: a line break at the end. -/
def bareName (name : List Char) : List Char :=
  if name.getLast? = some '\n' then name.dropLast else name

/-- **`_BQ_IDENTIFIER.match`.** -/
def isFieldName (value : String) : Bool :=
  match bareName value.toList with
  | [] => false
  | c :: cs => isWordStart c && cs.all isWordChar

/-- **`validate_field_name`.** What `repr` makes of a text is a parameter. -/
def validateFieldName (repr : String → String) (value : String) : Except Exc String :=
  if isFieldName value then .ok value
  else .error (valueError ("BigQuery field names must match ^[A-Za-z_][A-Za-z0-9_]*$ in the "
    ++ "official plugin v1 surface. Got " ++ repr value ++ "."))

/-- A check of the constructor. -/
def require (accepted : Bool) (text : String) : Except Exc Unit :=
  if accepted then .ok () else .error (valueError text)

section Source

variable {P : Type}

/-- **The constructor.** -/
def create (repr : String → String) (args : SourceArguments P) :
    Except Exc (QueryRuntime P) := do
  require (args.table.isNone != args.query.isNone)
    "Provide exactly one of table=... or query=...."
  require (1 ≤ args.batchSize) "batch_size must be >= 1."
  require (args.checkpointColumn.isNone || args.table.isSome)
    "checkpoint_column is only supported for table mode."
  let _ ← args.checkpointColumn.toList.mapM (validateFieldName repr)
  let _ ← args.checkpointTiebreakerColumn.toList.mapM (validateFieldName repr)
  require (args.checkpointTiebreakerColumn.isNone || args.checkpointColumn.isSome)
    "checkpoint_tiebreaker_column requires checkpoint_column."
  require (args.checkpointTiebreakerColumn.isNone
      || args.checkpointTiebreakerColumn ≠ args.checkpointColumn)
    "checkpoint_tiebreaker_column must differ from checkpoint_column."
  require (args.checkpointColumn.isNone || args.checkpointTiebreakerColumn.isSome
      || args.checkpointColumnIsUnique)
    ("BigQuery checkpoint_column requires either "
      ++ "checkpoint_column_is_unique=True or checkpoint_tiebreaker_column=... "
      ++ "to prevent data loss when cursor values repeat.")
  require (!(args.checkpointColumnIsUnique && args.checkpointTiebreakerColumn.isSome))
    ("Choose either checkpoint_column_is_unique=True or "
      ++ "checkpoint_tiebreaker_column, not both.")
  let validatedColumns ← args.columns.mapM (validateFieldName repr)
  let validatedOrderBy ← args.orderBy.mapM (validateFieldName repr)
  let checkpointOrder := args.checkpointColumn.toList ++ args.checkpointTiebreakerColumn.toList
  require (checkpointOrder = [] || validatedOrderBy = []
      || validatedOrderBy.take checkpointOrder.length = checkpointOrder)
    ("order_by must start with checkpoint_column and checkpoint_tiebreaker_column "
      ++ "when checkpointing is enabled.")
  pure
    { mode := args.table.elim (.query (args.query.getD "")) .table
      queryParameters := args.queryParameters
      columns := validatedColumns
      orderBy := if validatedOrderBy = [] then checkpointOrder else validatedOrderBy
      checkpointColumn := args.checkpointColumn
      checkpointTiebreakerColumn := args.checkpointTiebreakerColumn
      supportsCheckpoint := args.table.isSome && args.checkpointColumn.isSome }

/-- **`_quote_table_identifier`.** -/
def quoteTableIdentifier (repr : String → String) (value : String) : Except Exc String :=
  if '\x60' ∈ value.toList ∨ value.toList.all ProtoTokens.isSpace then
    .error (valueError ("Invalid BigQuery table identifier: " ++ repr value))
  else .ok ("\x60" ++ value ++ "\x60")

namespace QueryRuntime

variable (r : QueryRuntime P)

/-- The columns that a query compares with a cursor, if it resumes from one. -/
def resumed (resumeCursor : Option P) : Option (String × Option String) :=
  if r.supportsCheckpoint && resumeCursor.isSome then
    r.checkpointColumn.map (fun column => (column, r.checkpointTiebreakerColumn))
  else none

/-- The columns that are selected. -/
def selectedText : List String → String
  | [] => "*"
  | columns => ", ".intercalate columns

/-- The order of the rows. -/
def orderText : List String → String
  | [] => ""
  | orderBy => " ORDER BY " ++ ", ".intercalate orderBy

/-- The condition of a query that resumes. -/
def whereText : Option (String × Option String) → String
  | none => ""
  | some (column, none) => " WHERE " ++ column ++ " > @checkpoint_cursor"
  | some (column, some tiebreaker) =>
    " WHERE (" ++ column ++ " > @checkpoint_cursor "
      ++ "OR (" ++ column ++ " = @checkpoint_cursor "
      ++ "AND " ++ tiebreaker ++ " > @checkpoint_tiebreaker_cursor))"

/-- The parameters of a query, and what is raised about its cursor. Whether a value is a dict is a
parameter. -/
def parameters (asDict : P → Option (Dict String P)) (resumeCursor : Option P) :
    Except Exc (Dict String P) :=
  match r.supportsCheckpoint, resumeCursor with
  | true, some cursor =>
    match r.checkpointColumn, r.checkpointTiebreakerColumn with
    | none, _ => .error (.exception "AssertionError" "")
    | some _, none => .ok (r.queryParameters.insert "checkpoint_cursor" cursor)
    | some _, some _ =>
      match asDict cursor with
      | none =>
        .error (valueError ("BigQuery composite checkpoint resume requires a checkpoint value "
          ++ "containing both cursor and tiebreaker_cursor."))
      | some entries =>
        match entries.lookup "cursor", entries.lookup "tiebreaker_cursor" with
        | some checkpointCursor, some tiebreakerCursor =>
          .ok ((r.queryParameters.insert "checkpoint_cursor" checkpointCursor).insert
            "checkpoint_tiebreaker_cursor" tiebreakerCursor)
        | _, _ =>
          .error (valueError ("BigQuery composite checkpoint resume requires both 'cursor' and "
            ++ "'tiebreaker_cursor'."))
  | _, _ => .ok r.queryParameters

/-- **`build_query`.** -/
def buildQuery (repr : String → String) (asDict : P → Option (Dict String P))
    (resumeCursor : Option P) : Except Exc (String × Dict String P) :=
  match r.mode with
  | .query query => .ok (query, r.queryParameters)
  | .table table => do
    let quoted ← quoteTableIdentifier repr table
    let parameters ← r.parameters asDict resumeCursor
    pure ("SELECT " ++ selectedText r.columns ++ " FROM " ++ quoted
      ++ whereText (r.resumed resumeCursor) ++ orderText r.orderBy, parameters)

end QueryRuntime

end Source

/-! ## What a query is meant to be -/

def keyword (word : String) : Token := .keyword word.toList

def param (name : String) : Token := .param name.toList

section Tokens

variable (f : String → Token)

/-- Columns, with commas between them. -/
def listTokens : List String → List Token
  | [] => []
  | [name] => [f name]
  | name :: names => f name :: .symbol ',' :: listTokens names

/-- The columns, or a star for all of them. -/
def selectedTokens : List String → List Token
  | [] => [.symbol '*']
  | columns => listTokens f columns

def orderTokens : List String → List Token
  | [] => []
  | orderBy => keyword "ORDER" :: keyword "BY" :: listTokens f orderBy

/-- **The condition** of a query that resumes. -/
def whereTokens : Option (String × Option String) → List Token
  | none => []
  | some (column, none) =>
    [keyword "WHERE", f column, .symbol '>', param "checkpoint_cursor"]
  | some (column, some tiebreaker) =>
    [keyword "WHERE", .symbol '(', f column, .symbol '>', param "checkpoint_cursor", keyword "OR",
      .symbol '(', f column, .symbol '=', param "checkpoint_cursor", keyword "AND", f tiebreaker,
      .symbol '>', param "checkpoint_tiebreaker_cursor", .symbol ')', .symbol ')']

end Tokens

/-- A column is meant to be an identifier. -/
def identToken (name : String) : Token := .ident name.toList

/-- **The tokens that are meant**, with the table as one of them. -/
def QueryRuntime.skeleton {P : Type} (r : QueryRuntime P) (table : String)
    (resumed : Option (String × Option String)) : List Token :=
  keyword "SELECT" :: selectedTokens identToken r.columns ++ keyword "FROM" :: .quoted table.toList
    :: (whereTokens identToken resumed ++ orderTokens identToken r.orderBy)

/-- The names that a condition has. -/
def resumedNames : Option (String × Option String) → List String
  | none => []
  | some (column, tiebreaker) => column :: tiebreaker.toList

/-- The columns that are named in a query. -/
def QueryRuntime.names {P : Type} (r : QueryRuntime P)
    (resumed : Option (String × Option String)) : List String :=
  r.columns ++ resumedNames resumed ++ r.orderBy

/-- **A name that is an identifier**: without a line break at its end, and not reserved. -/
def IsPlain (name : String) : Prop :=
  name.toList.getLast? ≠ some '\n' ∧ name.toList.map Char.toUpper ∉ reserved

instance (name : String) : Decidable (IsPlain name) := inferInstanceAs (Decidable (_ ∧ _))

/-! ## What it is read as -/

/-- What a column is read as. -/
def columnToken (name : String) : Token := wordToken (bareName name.toList)

section Names

variable {q : Quoting} {name : String} {rest : List Char}

/-- A name that is accepted is a word, and perhaps a line break. -/
theorem isWord_of_isFieldName (h : isFieldName name = true) :
    ∃ c cs, bareName name.toList = c :: cs ∧ isWordStart c = true
      ∧ cs.all isWordChar = true := by
  unfold isFieldName at h
  split at h
  · cases h
  · rename_i c cs heq
    rw [Bool.and_eq_true] at h
    exact ⟨c, cs, heq, h⟩

/-- A name is what is bare of it, or has a line break after that. -/
theorem toList_eq_bareName (name : String) : name.toList = bareName name.toList
    ∨ name.toList = bareName name.toList ++ ['\n'] := by
  unfold bareName
  split_ifs with h
  · refine .inr ?_
    obtain ⟨init, hinit⟩ := List.getLast?_eq_some_iff.1 h
    rw [hinit, List.dropLast_concat]
  · exact .inl rfl

/-- **A name of a column** is read as one token. -/
theorem lexFrom_name (h : isFieldName name = true) (hrest : EndsWord rest) :
    lexFrom q .start (name.toList ++ rest)
      = (lexFrom q .start rest).map (columnToken name :: ·) := by
  obtain ⟨c, cs, hbare, hstart, hall⟩ := isWord_of_isFieldName h
  unfold columnToken
  rcases toList_eq_bareName name with heq | heq
  · conv_lhs => rw [heq, hbare]
    rw [hbare, lexFrom_word hstart hall hrest]
  · conv_lhs => rw [heq, hbare, List.append_assoc, List.singleton_append]
    have hbreak : EndsWord ('\n' :: rest) := by
      rintro d ⟨⟩
      rfl
    rw [hbare, lexFrom_word hstart hall hbreak, lexFrom_blank rfl]

/-- **A name is read as it is meant** just if it is plain. -/
theorem columnToken_eq_iff : columnToken name = identToken name ↔ IsPlain name := by
  unfold columnToken identToken IsPlain wordToken
  by_cases hbreak : name.toList.getLast? = some '\n'
  · refine iff_of_false (fun h => ?_) (fun h => h.1 hbreak)
    split_ifs at h
    have hlength := congrArg List.length (Token.ident.inj h)
    obtain ⟨init, hinit⟩ := List.getLast?_eq_some_iff.1 hbreak
    rw [bareName, if_pos hbreak, hinit, List.dropLast_concat, List.length_append,
      List.length_singleton] at hlength
    omega
  · rw [bareName, if_neg hbreak]
    by_cases hreserved : name.toList.map Char.toUpper ∈ reserved
    · rw [if_pos hreserved]
      exact iff_of_false (fun h => by cases h) (fun h => h.2 hreserved)
    · rw [if_neg hreserved]
      exact iff_of_true rfl ⟨hbreak, hreserved⟩

theorem quote_notMem_of_isFieldName (h : isFieldName name = true) : '\x60' ∉ name.toList := by
  obtain ⟨c, cs, hbare, hstart, hall⟩ := isWord_of_isFieldName h
  have hnot : '\x60' ∉ bareName name.toList := by
    rw [hbare, List.mem_cons, not_or]
    refine ⟨?_, fun hmem => ?_⟩
    · rintro rfl
      exact absurd hstart (by decide)
    · exact absurd (List.all_eq_true.1 hall _ hmem) (by decide)
  rcases toList_eq_bareName name with heq | heq
  · rwa [heq]
  · rw [heq, List.mem_append, not_or]
    exact ⟨hnot, by decide⟩

end Names

section Pieces

variable {q : Quoting} {rest : List Char} {names : List String}

/-- A character that is no part of a word ends it. -/
theorem endsWord_cons {c : Char} (h : isWordChar c = false) : EndsWord (c :: rest) := by
  rintro d ⟨⟩
  exact h

/-- A list of names ends with a name. -/
theorem lexFrom_names (hne : names ≠ []) (hnames : ∀ name ∈ names, isFieldName name = true)
    (hrest : EndsWord rest) :
    lexFrom q .start ((", ".intercalate names).toList ++ rest)
      = (lexFrom q .start rest).map (listTokens columnToken names ++ ·) := by
  induction names with
  | nil => exact absurd rfl hne
  | cons name names ih =>
    rw [List.forall_mem_cons] at hnames
    cases names with
    | nil =>
      rw [String.intercalate_singleton, lexFrom_name hnames.1 hrest]
      rfl
    | cons name' names =>
      have hcomma : (", ".intercalate (name :: name' :: names)).toList ++ rest
          = name.toList ++ ',' :: ' ' :: ((", ".intercalate (name' :: names)).toList ++ rest) := by
        rw [String.intercalate_cons_cons, String.toList_append, String.toList_append,
          List.append_assoc, List.append_assoc]
        rfl
      rw [hcomma, lexFrom_name hnames.1 (endsWord_cons rfl), lexFrom_symbol (by decide),
        lexFrom_blank rfl, ih (List.cons_ne_nil _ _) hnames.2, Option.map_map, Option.map_map]
      rfl

/-- A reserved word, in capital letters. -/
theorem lexFrom_keyword {word : String} {c : Char} {cs : List Char} (hword : word.toList = c :: cs)
    (hstart : isWordStart c = true) (hall : cs.all isWordChar = true)
    (hupper : word.toList.map Char.toUpper = word.toList) (hreserved : word.toList ∈ reserved)
    (hrest : EndsWord rest) :
    lexFrom q .start (word.toList ++ rest)
      = (lexFrom q .start rest).map (keyword word :: ·) := by
  have htoken : wordToken word.toList = keyword word := by
    unfold wordToken
    rw [hupper, if_pos hreserved]
    rfl
  rw [hword] at htoken ⊢
  rw [lexFrom_word hstart hall hrest, htoken]

/-- **The condition**, before what ends a word. -/
theorem lexFrom_whereText {resumed : Option (String × Option String)}
    (hnames : ∀ name ∈ resumedNames resumed, isFieldName name = true) (hrest : EndsWord rest) :
    lexFrom q .start ((QueryRuntime.whereText resumed).toList ++ rest)
      = (lexFrom q .start rest).map (whereTokens columnToken resumed ++ ·) := by
  match resumed with
  | none => exact (map_nil_append _).symm
  | some (column, none) =>
    have hcolumn := hnames column List.mem_cons_self
    have htext : (QueryRuntime.whereText (some (column, none))).toList ++ rest
        = ' ' :: ("WHERE".toList ++ ' ' :: (column.toList ++ ' ' :: '>' :: ' ' ::
          ('@' :: "checkpoint_cursor".toList ++ rest))) := by
      show (" WHERE " ++ column ++ " > @checkpoint_cursor").toList ++ rest = _
      rw [String.toList_append, String.toList_append, List.append_assoc, List.append_assoc]
      rfl
    rw [htext, lexFrom_blank rfl,
      lexFrom_keyword rfl rfl rfl rfl (List.mem_map_of_mem (by simp))
        (endsWord_cons rfl), lexFrom_blank rfl,
      lexFrom_name hcolumn (endsWord_cons rfl), lexFrom_blank rfl, lexFrom_symbol (by decide),
      lexFrom_blank rfl, lexFrom_param (by decide) (by decide) hrest]
    cases lexFrom q .start rest with
    | none => rfl
    | some tokens => rfl
  | some (column, some tiebreaker) =>
    have hcolumn := hnames column List.mem_cons_self
    have htiebreaker := hnames tiebreaker (List.mem_cons_of_mem _ List.mem_cons_self)
    have htext : (QueryRuntime.whereText (some (column, some tiebreaker))).toList ++ rest
        = ' ' :: ("WHERE".toList ++ ' ' :: '(' :: (column.toList ++ ' ' :: '>' :: ' ' ::
          ('@' :: "checkpoint_cursor".toList ++ ' ' :: ("OR".toList ++ ' ' :: '(' ::
          (column.toList ++ ' ' :: '=' :: ' ' :: ('@' :: "checkpoint_cursor".toList ++ ' ' ::
          ("AND".toList ++ ' ' :: (tiebreaker.toList ++ ' ' :: '>' :: ' ' ::
          ('@' :: "checkpoint_tiebreaker_cursor".toList ++ ')' :: ')' :: rest))))))))) := by
      show (" WHERE (" ++ column ++ " > @checkpoint_cursor "
        ++ "OR (" ++ column ++ " = @checkpoint_cursor "
        ++ "AND " ++ tiebreaker ++ " > @checkpoint_tiebreaker_cursor))").toList ++ rest = _
      rw [String.toList_append, String.toList_append, String.toList_append, String.toList_append,
        String.toList_append, String.toList_append, String.toList_append, String.toList_append]
      rw [List.append_assoc, List.append_assoc, List.append_assoc, List.append_assoc,
        List.append_assoc, List.append_assoc, List.append_assoc, List.append_assoc]
      rfl
    rw [htext, lexFrom_blank rfl,
      lexFrom_keyword rfl rfl rfl rfl (List.mem_map_of_mem (by simp))
        (endsWord_cons rfl), lexFrom_blank rfl,
      lexFrom_symbol (by decide), lexFrom_name hcolumn (endsWord_cons rfl), lexFrom_blank rfl,
      lexFrom_symbol (by decide), lexFrom_blank rfl,
      lexFrom_param (by decide) (by decide) (endsWord_cons rfl), lexFrom_blank rfl,
      lexFrom_keyword rfl rfl rfl rfl (List.mem_map_of_mem (by simp))
        (endsWord_cons rfl), lexFrom_blank rfl,
      lexFrom_symbol (by decide), lexFrom_name hcolumn (endsWord_cons rfl), lexFrom_blank rfl,
      lexFrom_symbol (by decide), lexFrom_blank rfl,
      lexFrom_param (by decide) (by decide) (endsWord_cons rfl), lexFrom_blank rfl,
      lexFrom_keyword rfl rfl rfl rfl (List.mem_map_of_mem (by simp))
        (endsWord_cons rfl), lexFrom_blank rfl,
      lexFrom_name htiebreaker (endsWord_cons rfl), lexFrom_blank rfl, lexFrom_symbol (by decide),
      lexFrom_blank rfl, lexFrom_param (by decide) (by decide) (endsWord_cons rfl),
      lexFrom_symbol (by decide), lexFrom_symbol (by decide)]
    cases lexFrom q .start rest with
    | none => rfl
    | some tokens => rfl

end Pieces

/-! ## Names that are accepted -/

section Accepted

variable {P : Type} {repr : String → String} {args : SourceArguments P} {r : QueryRuntime P}

/-- A name is accepted as it is, or not. -/
theorem validateFieldName_eq_ok_iff {value name : String} :
    validateFieldName repr value = .ok name ↔ name = value ∧ isFieldName value = true := by
  unfold validateFieldName
  split_ifs with h
  · rw [Except.ok.injEq]
    exact ⟨fun heq => ⟨heq.symm, h⟩, fun heq => heq.1.symm⟩
  · exact iff_of_false (fun heq => by cases heq) (fun heq => h heq.2)

/-- Names that are validated come back as they are. -/
theorem mapM_validateFieldName {names validated : List String}
    (h : names.mapM (validateFieldName repr) = .ok validated) :
    validated = names ∧ ∀ name ∈ names, isFieldName name = true := by
  have hall := (Fallible.mapM_eq_ok_iff.1 h).imp (fun _ _ h => validateFieldName_eq_ok_iff.1 h)
  clear h
  induction hall with
  | nil => exact ⟨rfl, fun name hname => absurd hname List.not_mem_nil⟩
  | cons h _ ih => exact ⟨by rw [h.1, ih.1], List.forall_mem_cons.2 ⟨h.2, ih.2⟩⟩

/-- **The names of a source that is accepted** match the pattern. -/
theorem isFieldName_of_create (h : create repr args = .ok r) (resumeCursor : Option P) :
    ∀ name ∈ r.names (r.resumed resumeCursor), isFieldName name = true := by
  unfold create at h
  obtain ⟨_, _, h⟩ := Fallible.bind_eq_ok_iff.1 h
  obtain ⟨_, _, h⟩ := Fallible.bind_eq_ok_iff.1 h
  obtain ⟨_, _, h⟩ := Fallible.bind_eq_ok_iff.1 h
  obtain ⟨_, hcolumn, h⟩ := Fallible.bind_eq_ok_iff.1 h
  obtain ⟨_, htiebreaker, h⟩ := Fallible.bind_eq_ok_iff.1 h
  obtain ⟨_, _, h⟩ := Fallible.bind_eq_ok_iff.1 h
  obtain ⟨_, _, h⟩ := Fallible.bind_eq_ok_iff.1 h
  obtain ⟨_, _, h⟩ := Fallible.bind_eq_ok_iff.1 h
  obtain ⟨_, _, h⟩ := Fallible.bind_eq_ok_iff.1 h
  obtain ⟨columns, hcolumns, h⟩ := Fallible.bind_eq_ok_iff.1 h
  obtain ⟨orderBy, horderBy, h⟩ := Fallible.bind_eq_ok_iff.1 h
  obtain ⟨_, _, h⟩ := Fallible.bind_eq_ok_iff.1 h
  obtain rfl := Except.ok.inj h
  have hcheckpoint : ∀ name ∈ args.checkpointColumn.toList
      ++ args.checkpointTiebreakerColumn.toList, isFieldName name = true :=
    List.forall_mem_append.2 ⟨(mapM_validateFieldName hcolumn).2,
      (mapM_validateFieldName htiebreaker).2⟩
  obtain ⟨rfl, hselected⟩ := mapM_validateFieldName hcolumns
  obtain ⟨rfl, hordered⟩ := mapM_validateFieldName horderBy
  refine List.forall_mem_append.2 ⟨List.forall_mem_append.2 ⟨hselected, ?_⟩, ?_⟩
  · -- the condition names the checkpoint columns, or nothing
    unfold QueryRuntime.resumed
    dsimp only
    split_ifs
    · cases hone : args.checkpointColumn with
      | none => exact fun name hname => absurd hname List.not_mem_nil
      | some column =>
        rw [hone] at hcheckpoint
        exact hcheckpoint
    · exact fun name hname => absurd hname List.not_mem_nil
  · show ∀ name ∈ (if args.orderBy = [] then _ else args.orderBy), _
    split_ifs
    · exact hcheckpoint
    · exact hordered

end Accepted

/-! ## The tokens of a query -/

section Query

variable {q : Quoting}

/-- A token for each name: the lists of tokens are equal where the tokens of the names are. -/
theorem listTokens_eq_iff {f g : String → Token} {names : List String} :
    listTokens f names = listTokens g names ↔ ∀ name ∈ names, f name = g name := by
  induction names with
  | nil => exact iff_of_true rfl (fun name hname => absurd hname List.not_mem_nil)
  | cons name names ih =>
    rw [List.forall_mem_cons]
    cases names with
    | nil =>
      rw [listTokens, listTokens, List.cons.injEq, eq_self, and_true]
      exact (and_iff_left (fun name hname => absurd hname List.not_mem_nil)).symm
    | cons name' names =>
      show f name :: .symbol ',' :: listTokens f (name' :: names)
        = g name :: .symbol ',' :: listTokens g (name' :: names) ↔ _
      rw [List.cons.injEq, List.cons.injEq, ih, eq_self, true_and]

/-- Columns are read in two ways alike just if each of them is. -/
theorem selectedTokens_eq_iff {f g : String → Token} {columns : List String} :
    selectedTokens f columns = selectedTokens g columns ↔ ∀ name ∈ columns, f name = g name := by
  cases columns with
  | nil => exact iff_of_true rfl (fun name hname => absurd hname List.not_mem_nil)
  | cons => exact listTokens_eq_iff

theorem orderTokens_eq_iff {f g : String → Token} {orderBy : List String} :
    orderTokens f orderBy = orderTokens g orderBy ↔ ∀ name ∈ orderBy, f name = g name := by
  cases orderBy with
  | nil => exact iff_of_true rfl (fun name hname => absurd hname List.not_mem_nil)
  | cons name names =>
    show keyword "ORDER" :: keyword "BY" :: listTokens f (name :: names)
      = keyword "ORDER" :: keyword "BY" :: listTokens g (name :: names) ↔ _
    rw [List.cons.injEq, List.cons.injEq, listTokens_eq_iff, eq_self, true_and, eq_self, true_and]

theorem whereTokens_eq_iff {f g : String → Token} {resumed : Option (String × Option String)} :
    whereTokens f resumed = whereTokens g resumed
      ↔ ∀ name ∈ resumedNames resumed, f name = g name := by
  match resumed with
  | none => exact iff_of_true rfl (fun name hname => absurd hname List.not_mem_nil)
  | some (column, none) => simp [whereTokens, resumedNames]
  | some (column, some tiebreaker) => simp [whereTokens, resumedNames]

/-- **The columns** are read one by one, with commas between them. -/
theorem lexFrom_selectedText {columns : List String} {rest : List Char}
    (hnames : ∀ name ∈ columns, isFieldName name = true) (hrest : EndsWord rest) :
    lexFrom q .start ((QueryRuntime.selectedText columns).toList ++ rest)
      = (lexFrom q .start rest).map (selectedTokens columnToken columns ++ ·) := by
  cases columns with
  | nil => exact lexFrom_symbol (by decide)
  | cons name names => exact lexFrom_names (List.cons_ne_nil _ _) hnames hrest

theorem lexFrom_orderText {orderBy : List String}
    (hnames : ∀ name ∈ orderBy, isFieldName name = true) :
    lexFrom q .start (QueryRuntime.orderText orderBy).toList
      = some (orderTokens columnToken orderBy) := by
  cases orderBy with
  | nil => rfl
  | cons name names =>
    have htext : (QueryRuntime.orderText (name :: names)).toList
        = ' ' :: ("ORDER".toList ++ ' ' :: ("BY".toList ++ ' ' ::
          ((", ".intercalate (name :: names)).toList ++ []))) := by
      rw [List.append_nil]
      show (" ORDER BY " ++ ", ".intercalate (name :: names)).toList = _
      rw [String.toList_append]
      rfl
    rw [htext, lexFrom_blank rfl,
      lexFrom_keyword rfl rfl rfl rfl (List.mem_map_of_mem (by simp))
        (endsWord_cons rfl), lexFrom_blank rfl,
      lexFrom_keyword rfl rfl rfl rfl (List.mem_map_of_mem (by simp))
        (endsWord_cons rfl), lexFrom_blank rfl,
      lexFrom_names (List.cons_ne_nil _ _) hnames (fun c hc => by cases hc)]
    show some (keyword "ORDER" :: keyword "BY" :: (listTokens columnToken (name :: names) ++ []))
      = _
    rw [List.append_nil]
    rfl

/-- An order begins with a blank. -/
theorem endsWord_orderText (orderBy : List String) :
    EndsWord (QueryRuntime.orderText orderBy).toList := by
  cases orderBy with
  | nil => exact fun c hc => by cases hc
  | cons name names =>
    show EndsWord (" ORDER BY " ++ ", ".intercalate (name :: names)).toList
    rw [String.toList_append]
    exact endsWord_cons rfl

theorem quote_notMem_intercalate {names : List String}
    (hnames : ∀ name ∈ names, isFieldName name = true) :
    '\x60' ∉ (", ".intercalate names).toList := by
  induction names with
  | nil => exact List.not_mem_nil
  | cons name names ih =>
    rw [List.forall_mem_cons] at hnames
    cases names with
    | nil =>
      rw [String.intercalate_singleton]
      exact quote_notMem_of_isFieldName hnames.1
    | cons name' names =>
      rw [String.intercalate_cons_cons, String.toList_append, String.toList_append,
        List.mem_append, List.mem_append, not_or, not_or]
      exact ⟨⟨quote_notMem_of_isFieldName hnames.1, by decide⟩, ih hnames.2⟩

theorem quote_notMem_orderText {orderBy : List String}
    (hnames : ∀ name ∈ orderBy, isFieldName name = true) :
    '\x60' ∉ (QueryRuntime.orderText orderBy).toList := by
  cases orderBy with
  | nil => exact List.not_mem_nil
  | cons name names =>
    show '\x60' ∉ (" ORDER BY " ++ ", ".intercalate (name :: names)).toList
    rw [String.toList_append, List.mem_append, not_or]
    exact ⟨by decide, quote_notMem_intercalate hnames⟩

theorem quote_notMem_whereText {resumed : Option (String × Option String)}
    (hnames : ∀ name ∈ resumedNames resumed, isFieldName name = true) :
    '\x60' ∉ (QueryRuntime.whereText resumed).toList := by
  match resumed with
  | none => exact List.not_mem_nil
  | some (column, none) =>
    have hcolumn := quote_notMem_of_isFieldName (hnames column List.mem_cons_self)
    show '\x60' ∉ (" WHERE " ++ column ++ " > @checkpoint_cursor").toList
    rw [String.toList_append, String.toList_append, List.mem_append, List.mem_append, not_or,
      not_or]
    exact ⟨⟨by decide, hcolumn⟩, by decide⟩
  | some (column, some tiebreaker) =>
    have hcolumn := quote_notMem_of_isFieldName (hnames column List.mem_cons_self)
    have htiebreaker := quote_notMem_of_isFieldName
      (hnames tiebreaker (List.mem_cons_of_mem _ List.mem_cons_self))
    show '\x60' ∉ (" WHERE (" ++ column ++ " > @checkpoint_cursor "
        ++ "OR (" ++ column ++ " = @checkpoint_cursor "
        ++ "AND " ++ tiebreaker ++ " > @checkpoint_tiebreaker_cursor))").toList
    simp only [String.toList_append, List.mem_append, not_or]
    refine ⟨⟨⟨⟨⟨⟨⟨⟨?_, hcolumn⟩, ?_⟩, ?_⟩, hcolumn⟩, ?_⟩, ?_⟩, htiebreaker⟩, ?_⟩
    all_goals decide

/-- **What is before the table**: `SELECT`, the columns and `FROM`. -/
theorem lexFrom_beforeTable {columns : List String} {rest : List Char}
    (hnames : ∀ name ∈ columns, isFieldName name = true) :
    lexFrom q .start (("SELECT " ++ QueryRuntime.selectedText columns ++ " FROM ").toList ++ rest)
      = (lexFrom q .start rest).map ((keyword "SELECT" :: selectedTokens columnToken columns
        ++ [keyword "FROM"]) ++ ·) := by
  have htext : ("SELECT " ++ QueryRuntime.selectedText columns ++ " FROM ").toList ++ rest
      = "SELECT".toList ++ ' ' :: ((QueryRuntime.selectedText columns).toList ++ ' ' ::
        ("FROM".toList ++ ' ' :: rest)) := by
    rw [String.toList_append, String.toList_append, List.append_assoc, List.append_assoc]
    rfl
  rw [htext, lexFrom_keyword rfl rfl rfl rfl (List.mem_map_of_mem (by simp))
      (endsWord_cons rfl), lexFrom_blank rfl,
    lexFrom_selectedText hnames (endsWord_cons rfl), lexFrom_blank rfl,
    lexFrom_keyword rfl rfl rfl rfl (List.mem_map_of_mem (by simp))
      (endsWord_cons rfl), lexFrom_blank rfl]
  cases lexFrom q .start rest with
  | none => rfl
  | some tokens =>
    show some (keyword "SELECT" :: (selectedTokens columnToken columns ++ keyword "FROM" :: tokens))
      = some (keyword "SELECT" :: selectedTokens columnToken columns ++ [keyword "FROM"] ++ tokens)
    rw [List.append_assoc]
    rfl

/-- There are as many tokens, whatever those of the columns are. -/
theorem length_listTokens (f g : String → Token) (names : List String) :
    (listTokens f names).length = (listTokens g names).length := by
  induction names with
  | nil => rfl
  | cons name names ih =>
    cases names with
    | nil => rfl
    | cons name' names => exact congrArg (· + 2) ih

theorem length_selectedTokens (f g : String → Token) (columns : List String) :
    (selectedTokens f columns).length = (selectedTokens g columns).length := by
  cases columns with
  | nil => rfl
  | cons => exact length_listTokens f g _

theorem length_whereTokens (f g : String → Token) (resumed : Option (String × Option String)) :
    (whereTokens f resumed).length = (whereTokens g resumed).length := by
  match resumed with
  | none => rfl
  | some (_, none) => rfl
  | some (_, some _) => rfl

/-- **A table that is accepted** stands between backticks, and has none in it. -/
theorem quoteTableIdentifier_eq_ok {repr : String → String} {table quoted : String}
    (h : quoteTableIdentifier repr table = .ok quoted) :
    '\x60' ∉ table.toList ∧ table.toList ≠ [] ∧ quoted = "\x60" ++ table ++ "\x60" := by
  unfold quoteTableIdentifier at h
  split_ifs at h with hrejected
  rw [not_or] at hrejected
  refine ⟨hrejected.1, fun hnil => ?_, (Except.ok.inj h).symm⟩
  rw [hnil] at hrejected
  exact hrejected.2 rfl

/-- The table is where the text begins to be in doubt. -/
theorem toList_append_quoted (before table condition order : String) :
    (before ++ ("\x60" ++ table ++ "\x60") ++ condition ++ order).toList
      = before.toList ++ ('\x60' :: table.toList
        ++ '\x60' :: (condition.toList ++ order.toList)) := by
  rw [String.toList_append, String.toList_append, String.toList_append, String.toList_append,
    String.toList_append, List.append_assoc, List.append_assoc, List.append_assoc]
  rfl

end Query

/-- **The text of a query has the tokens that are meant** exactly where the table has no backslash
and no line break that does not stand for itself, and every column that is named is an
identifier. -/
theorem lexes_iff {P : Type} {repr : String → String} (q : Quoting) {args : SourceArguments P}
    {r : QueryRuntime P} {asDict : P → Option (Dict String P)} {table text : String}
    {resumeCursor : Option P} {parameters : Dict String P} (hcreate : create repr args = .ok r)
    (hmode : r.mode = .table table)
    (hbuild : r.buildQuery repr asDict resumeCursor = .ok (text, parameters)) :
    lexFrom q .start text.toList = some (r.skeleton table (r.resumed resumeCursor))
      ↔ ('\\' ∉ table.toList ∧ ∀ c ∈ table.toList, c = '\n' ∨ c = '\r' → q.raw c = some c)
        ∧ ∀ name ∈ r.names (r.resumed resumeCursor), IsPlain name := by
  have hnames := isFieldName_of_create hcreate resumeCursor
  unfold QueryRuntime.buildQuery at hbuild
  rw [hmode] at hbuild
  obtain ⟨quoted, hquoted, hbuild⟩ := Fallible.bind_eq_ok_iff.1 hbuild
  obtain ⟨_, _, hbuild⟩ := Fallible.bind_eq_ok_iff.1 hbuild
  obtain ⟨rfl, _⟩ := Prod.mk.inj (Except.ok.inj hbuild)
  obtain ⟨hquote, hne, rfl⟩ := quoteTableIdentifier_eq_ok hquoted
  generalize r.resumed resumeCursor = resumed at hnames
  obtain ⟨hselected, hresumed, hordered⟩ : (∀ name ∈ r.columns, isFieldName name = true)
      ∧ (∀ name ∈ resumedNames resumed, isFieldName name = true)
      ∧ ∀ name ∈ r.orderBy, isFieldName name = true := by
    rw [QueryRuntime.names, List.forall_mem_append, List.forall_mem_append] at hnames
    exact ⟨hnames.1.1, hnames.1.2, hnames.2⟩
  have hafter : lexFrom q .start ((QueryRuntime.whereText resumed).toList
      ++ (QueryRuntime.orderText r.orderBy).toList)
      = some (whereTokens columnToken resumed ++ orderTokens columnToken r.orderBy) := by
    rw [lexFrom_whereText hresumed (endsWord_orderText r.orderBy), lexFrom_orderText hordered]
    rfl
  have hnotquote : '\x60' ∉ (QueryRuntime.whereText resumed).toList
      ++ (QueryRuntime.orderText r.orderBy).toList := by
    rw [List.mem_append, not_or]
    exact ⟨quote_notMem_whereText hresumed, quote_notMem_orderText hordered⟩
  have hskeleton : r.skeleton table resumed
      = (keyword "SELECT" :: selectedTokens identToken r.columns ++ [keyword "FROM"])
        ++ .quoted table.toList
          :: (whereTokens identToken resumed ++ orderTokens identToken r.orderBy) := by
    unfold QueryRuntime.skeleton
    rw [List.append_assoc]
    rfl
  have hplain : (∀ c ∈ table.toList, q.raw c = some c)
      ↔ ∀ c ∈ table.toList, c = '\n' ∨ c = '\r' → q.raw c = some c := by
    refine forall₂_congr (fun c _ => ⟨fun h _ => h, fun h => ?_⟩)
    by_cases hbreak : c = '\n' ∨ c = '\r'
    · exact h hbreak
    · rw [not_or] at hbreak
      exact q.raw_of_ne c hbreak.1 hbreak.2
  rw [toList_append_quoted, lexFrom_beforeTable hselected, hskeleton, ← hplain,
    QueryRuntime.names, List.forall_mem_append, List.forall_mem_append]
  simp only [← columnToken_eq_iff]
  rw [← selectedTokens_eq_iff, ← whereTokens_eq_iff, ← orderTokens_eq_iff, Option.map_eq_some_iff]
  constructor
  · rintro ⟨tokens, htokens, heq⟩
    have hlength : (keyword "SELECT" :: selectedTokens columnToken r.columns
        ++ [keyword "FROM"]).length = (keyword "SELECT" :: selectedTokens identToken r.columns
        ++ [keyword "FROM"]).length := by
      simp only [List.length_append, List.length_cons,
        length_selectedTokens columnToken identToken]
    obtain ⟨hbefore, rfl⟩ := List.append_inj heq hlength
    obtain ⟨htable, hrest⟩ := (lexFrom_quote_iff hne hquote hnotquote).1 htokens
    have hselect := (List.cons.inj (List.append_cancel_right hbefore)).2
    obtain ⟨hwhere, horder⟩ := List.append_inj (Option.some.inj (hafter.symm.trans hrest))
      (length_whereTokens columnToken identToken resumed)
    exact ⟨htable, ⟨hselect, hwhere⟩, horder⟩
  · rintro ⟨htable, ⟨hselect, hwhere⟩, horder⟩
    refine ⟨_, (lexFrom_quote_iff hne hquote hnotquote).2 ⟨htable, hafter⟩, ?_⟩
    rw [hselect, hwhere, horder]

/-! ## A table with a backslash at its end -/

/-- `repr` of a text with nothing in it to escape. -/
def quoted (text : String) : String := "'" ++ text ++ "'"

/-- A line break between backticks stands for itself. -/
def rawQuoting : Quoting := ⟨some, fun _ _ _ => rfl⟩

/-- A source that reads all columns of a table. -/
def wholeTable (table : String) : QueryRuntime ℕ where
  mode := .table table
  queryParameters := ∅
  columns := []
  orderBy := []
  checkpointColumn := none
  checkpointTiebreakerColumn := none
  supportsCheckpoint := false

/-- **The backtick after it does not end the identifier**, and the text has no tokens. -/
theorem not_lexes_backslash :
    create quoted { table := some "shop.sales.orders\\" } = .ok (wholeTable "shop.sales.orders\\")
      ∧ (wholeTable "shop.sales.orders\\").buildQuery quoted (fun _ => none) none
        = .ok ("SELECT * FROM \x60shop.sales.orders\\\x60", ∅)
      ∧ lexFrom rawQuoting .start "SELECT * FROM \x60shop.sales.orders\\\x60".toList = none
      ∧ lexFrom rawQuoting .start "SELECT * FROM \x60shop.sales.orders\\\x60".toList
        ≠ some ((wholeTable "shop.sales.orders\\").skeleton "shop.sales.orders\\" none) := by
  have hnone : lexFrom rawQuoting .start
      "SELECT * FROM \x60shop.sales.orders\\\x60".toList = none := by
    decide +kernel
  have htext : "SELECT " ++ "*" ++ " FROM " ++ ("\x60" ++ "shop.sales.orders\\" ++ "\x60") ++ ""
      ++ "" = "SELECT * FROM \x60shop.sales.orders\\\x60" := by
    decide +kernel
  refine ⟨rfl, congrArg (fun text => Except.ok (text, ∅)) htext, hnone, ?_⟩
  rw [hnone]
  exact fun h => by cases h

/-- A table that is read in the order of one of its columns. -/
def ordersArguments : SourceArguments ℕ where
  table := some "shop.sales.orders"
  columns := ["id", "total"]
  checkpointColumn := some "id"
  checkpointColumnIsUnique := true

def orders : QueryRuntime ℕ where
  mode := .table "shop.sales.orders"
  queryParameters := ∅
  columns := ["id", "total"]
  orderBy := ["id"]
  checkpointColumn := some "id"
  checkpointTiebreakerColumn := none
  supportsCheckpoint := true

/-- The query that resumes at five has the tokens that are meant. -/
theorem lexes_orders :
    lexFrom rawQuoting .start ("SELECT id, total FROM \x60shop.sales.orders\x60 "
        ++ "WHERE id > @checkpoint_cursor ORDER BY id").toList
      = some (orders.skeleton "shop.sales.orders" (some ("id", none))) := by
  have hcreate : create quoted ordersArguments = .ok orders := rfl
  have htext : "SELECT " ++ ", ".intercalate ["id", "total"] ++ " FROM "
      ++ ("\x60" ++ "shop.sales.orders" ++ "\x60")
      ++ (" WHERE " ++ "id" ++ " > @checkpoint_cursor") ++ (" ORDER BY " ++ ", ".intercalate ["id"])
      = "SELECT id, total FROM \x60shop.sales.orders\x60 "
        ++ "WHERE id > @checkpoint_cursor ORDER BY id" := by
    decide +kernel
  have hbuild : orders.buildQuery quoted (fun _ => none) (some 5) = .ok (_, _) :=
    congrArg (fun text => Except.ok (text, (∅ : Dict String ℕ).insert "checkpoint_cursor" 5)) htext
  refine (lexes_iff rawQuoting hcreate rfl hbuild).2 ⟨⟨by decide +kernel, fun c _ _ => rfl⟩, ?_⟩
  decide +kernel

end BigQueryQueries

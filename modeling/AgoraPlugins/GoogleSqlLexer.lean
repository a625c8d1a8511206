import Mathlib.Data.List.Basic
import Mathlib.Data.List.Forall2
import Mathlib.Tactic.Common

/-!
# The tokens of GoogleSQL

A text is read from left to right. A word is as long as it can be, and is a keyword if it is one of
the reserved words, in whatever case, and otherwise an identifier. Between backticks stands an
identifier too, with the escape sequences of strings: so a backslash begins an escape sequence
there, and a backtick after it does not end the identifier. A word after an at sign names a
parameter.

Only these tokens and some symbols are read; a text with others, or with an identifier or an escape
sequence that is not as it has to be, has no tokens.

What is between backticks is read as itself, character by character, exactly where there is no
backslash in it (`lexFrom_quote_iff`).
-/

namespace GoogleSql

/-! ## Characters -/

/-- `[A-Za-z_]`. -/
def isWordStart (c : Char) : Bool := c.isAlpha || c = '_'

/-- `[A-Za-z0-9_]`. -/
def isWordChar (c : Char) : Bool := c.isAlphanum || c = '_'

def isBlank (c : Char) : Bool := c = ' ' || c = '\t' || c = '\n' || c = '\r'

def symbols : List Char := [',', '*', '(', ')', '>', '=']

/-- The reserved words. -/
def reserved : List (List Char) :=
  ["ALL", "AND", "ANY", "ARRAY", "AS", "ASC", "ASSERT_ROWS_MODIFIED", "AT", "BETWEEN", "BY", "CASE",
    "CAST", "COLLATE", "CONTAINS", "CREATE", "CROSS", "CUBE", "CURRENT", "DEFAULT", "DEFINE",
    "DESC", "DISTINCT", "ELSE", "END", "ENUM", "ESCAPE", "EXCEPT", "EXCLUDE", "EXISTS", "EXTRACT",
    "FALSE", "FETCH", "FOLLOWING", "FOR", "FROM", "FULL", "GROUP", "GROUPING", "GROUPS", "HASH",
    "HAVING", "IF", "IGNORE", "IN", "INNER", "INTERSECT", "INTERVAL", "INTO", "IS", "JOIN",
    "LATERAL", "LEFT", "LIKE", "LIMIT", "LOOKUP", "MERGE", "NATURAL", "NEW", "NO", "NOT", "NULL",
    "NULLS", "OF", "ON", "OR", "ORDER", "OUTER", "OVER", "PARTITION", "PRECEDING", "PROTO",
    "QUALIFY", "RANGE", "RECURSIVE", "RESPECT", "RIGHT", "ROLLUP", "ROWS", "SELECT", "SET", "SOME",
    "STRUCT", "TABLESAMPLE", "THEN", "TO", "TREAT", "TRUE", "UNBOUNDED", "UNION", "UNNEST", "USING",
    "WHEN", "WHERE", "WINDOW", "WITH", "WITHIN"].map String.toList

instance (word : List Char) : Decidable (word ∈ reserved) :=
  decidable_of_iff (reserved.any (fun k => k = word) = true) (by
    rw [List.any_eq_true]
    constructor
    · rintro ⟨k, hk, heq⟩
      rwa [← of_decide_eq_true heq]
    · intro h
      exact ⟨word, h, decide_eq_true rfl⟩)

/-- **What a character between backticks stands for**, if it may be there. Whether a line break may
be, and whether it stands for itself, is left open. -/
structure Quoting where
  raw : Char → Option Char
  raw_of_ne : ∀ c, c ≠ '\n' → c ≠ '\r' → raw c = some c

/-! ## The lexer -/

inductive Token where
  | keyword (word : List Char)
  | ident (name : List Char)
  | quoted (name : List Char)
  | param (name : List Char)
  | symbol (c : Char)
  deriving DecidableEq

/-- What a word is. -/
def wordToken (word : List Char) : Token :=
  if word.map Char.toUpper ∈ reserved then .keyword (word.map Char.toUpper) else .ident word

/-- Where the lexer is, with what it has read of the token. -/
inductive Mode where
  | start
  | word (word : List Char)
  | param (name : List Char)
  | quoted (name : List Char)
  /-- after a backslash -/
  | escape (name : List Char)
  /-- before so many more digits of a character's number -/
  | digits (base : ℕ) (name : List Char) (left : ℕ) (value : ℕ)
  deriving DecidableEq

/-- The escape sequences of two characters. -/
def simpleEscape (c : Char) : Option Char :=
  [('a', Char.ofNat 7), ('b', Char.ofNat 8), ('f', Char.ofNat 12), ('n', '\n'), ('r', '\r'),
    ('t', '\t'), ('v', Char.ofNat 11), ('\\', '\\'), ('?', '?'), ('"', '"'), ('\x27', '\x27'),
    ('\x60', '\x60')].lookup c

def digitValue (c : Char) : ℕ :=
  if c.isDigit then c.toNat - 48
  else if 'a' ≤ c ∧ c ≤ 'f' then c.toNat - 87
  else if 'A' ≤ c ∧ c ≤ 'F' then c.toNat - 55
  else 16

/-- The character with this number, if there is one. -/
def charOf (value : ℕ) : Option Char :=
  if value < 0xD800 ∨ (0xDFFF < value ∧ value ≤ 0x10FFFF) then some (Char.ofNat value) else none

/-- A digit is read. -/
def readDigit (base : ℕ) (name : List Char) (left value : ℕ) (c : Char) : Option Mode :=
  if digitValue c < base then
    if left ≤ 1 then (charOf (value * base + digitValue c)).map (fun d => .quoted (name ++ [d]))
    else some (.digits base name (left - 1) (value * base + digitValue c))
  else none

/-- What comes after a backslash. -/
def stepEscape (name : List Char) (c : Char) : Option Mode :=
  match simpleEscape c with
  | some d => some (.quoted (name ++ [d]))
  | none =>
    if c = 'x' ∨ c = 'X' then some (.digits 16 name 2 0)
    else if c = 'u' then some (.digits 16 name 4 0)
    else if c = 'U' then some (.digits 16 name 8 0)
    else readDigit 8 name 3 0 c

/-- A token begins. -/
def stepStart (c : Char) : Option (List Token × Mode) :=
  if isBlank c then some ([], .start)
  else if isWordStart c then some ([], .word [c])
  else if c = '@' then some ([], .param [])
  else if c = '\x60' then some ([], .quoted [])
  else if c ∈ symbols then some ([.symbol c], .start)
  else none

variable (q : Quoting)

/-- **One character**: the tokens that it ends, and where the lexer is then. -/
def step : Mode → Char → Option (List Token × Mode)
  | .start, c => stepStart c
  | .word word, c =>
    if isWordChar c then some ([], .word (word ++ [c]))
    else (stepStart c).map (fun r => (wordToken word :: r.1, r.2))
  | .param name, c =>
    if isWordChar c then some ([], .param (name ++ [c]))
    else if name = [] then none
    else (stepStart c).map (fun r => (.param name :: r.1, r.2))
  | .quoted name, c =>
    if c = '\x60' then if name = [] then none else some ([.quoted name], .start)
    else if c = '\\' then some ([], .escape name)
    else (q.raw c).map (fun d => ([], .quoted (name ++ [d])))
  | .escape name, c => (stepEscape name c).map (fun m => ([], m))
  | .digits base name left value, c => (readDigit base name left value c).map (fun m => ([], m))

/-- The text ends. -/
def final : Mode → Option (List Token)
  | .start => some []
  | .word word => some [wordToken word]
  | .param name => if name = [] then none else some [.param name]
  | .quoted _ | .escape _ | .digits _ _ _ _ => none

/-- **The tokens of a text.** -/
def lexFrom : Mode → List Char → Option (List Token)
  | m, [] => final m
  | m, c :: cs => (step q m c).bind (fun r => (lexFrom r.2 cs).map (r.1 ++ ·))

/-! ## Words, parameters and symbols -/

section Tokens

variable {q : Quoting} {c : Char} {rest : List Char}

/-- What a word cannot go on with. -/
def EndsWord (rest : List Char) : Prop := ∀ c ∈ rest.head?, isWordChar c = false

theorem map_nil_append (tokens : Option (List Token)) : tokens.map ([] ++ ·) = tokens :=
  Option.map_id'

theorem lexFrom_blank (h : isBlank c = true) :
    lexFrom q .start (c :: rest) = lexFrom q .start rest := by
  rw [lexFrom, step, stepStart, if_pos h, Option.bind_some]
  exact map_nil_append _

theorem lexFrom_symbol (h : c ∈ symbols) :
    lexFrom q .start (c :: rest) = (lexFrom q .start rest).map (Token.symbol c :: ·) := by
  have hstep : stepStart c = some ([Token.symbol c], .start) := by
    simp only [symbols, List.mem_cons, List.not_mem_nil, or_false] at h
    rcases h with rfl | rfl | rfl | rfl | rfl | rfl
    all_goals rfl
  rw [lexFrom, step, hstep]
  rfl

/-- A token ends with what begins the next one, which is then read as from the start. -/
theorem bind_map_stepStart (t : Token) :
    ((stepStart c).map (fun r => (t :: r.1, r.2))).bind
        (fun r => (lexFrom q r.2 rest).map (r.1 ++ ·))
      = (lexFrom q .start (c :: rest)).map (t :: ·) := by
  rw [lexFrom, step]
  cases stepStart c with
  | none => rfl
  | some r =>
    rw [Option.map_some, Option.bind_some, Option.bind_some, Option.map_map]
    rfl

theorem lexFrom_word_append {word more : List Char} (hmore : more.all isWordChar = true)
    (hrest : EndsWord rest) : lexFrom q (.word word) (more ++ rest)
      = (lexFrom q .start rest).map (wordToken (word ++ more) :: ·) := by
  induction more generalizing word with
  | nil =>
    rw [List.nil_append, List.append_nil]
    cases rest with
    | nil => rfl
    | cons c rest =>
      have hc : isWordChar c = false := hrest c rfl
      rw [lexFrom, step, if_neg (by rw [hc]; exact Bool.false_ne_true), bind_map_stepStart]
  | cons c more ih =>
    rw [List.all_cons, Bool.and_eq_true] at hmore
    rw [List.cons_append, lexFrom, step, if_pos hmore.1, Option.bind_some, ih hmore.2,
      List.append_assoc, List.singleton_append]
    exact map_nil_append _

/-- **A word** is read as long as it can be. -/
theorem lexFrom_word {word : List Char} (hstart : isWordStart c = true)
    (hword : word.all isWordChar = true) (hrest : EndsWord rest) :
    lexFrom q .start (c :: word ++ rest)
      = (lexFrom q .start rest).map (wordToken (c :: word) :: ·) := by
  have hblank : isBlank c = false := by
    by_contra h
    rw [Bool.not_eq_false] at h
    simp only [isBlank, Bool.or_eq_true, decide_eq_true_eq] at h
    rcases h with ((rfl | rfl) | rfl) | rfl
    all_goals exact absurd hstart (by decide)
  have hstep : stepStart c = some ([], .word [c]) := by
    rw [stepStart, if_neg (by rw [hblank]; exact Bool.false_ne_true), if_pos hstart]
  rw [List.cons_append, lexFrom, step, hstep, Option.bind_some, lexFrom_word_append hword hrest]
  exact map_nil_append _

theorem lexFrom_param_append {name more : List Char} (hname : name ++ more ≠ [])
    (hmore : more.all isWordChar = true) (hrest : EndsWord rest) :
    lexFrom q (.param name) (more ++ rest)
      = (lexFrom q .start rest).map (Token.param (name ++ more) :: ·) := by
  induction more generalizing name with
  | nil =>
    rw [List.append_nil] at hname
    rw [List.nil_append, List.append_nil]
    cases rest with
    | nil =>
      rw [lexFrom, final, if_neg hname]
      rfl
    | cons c rest =>
      have hc : isWordChar c = false := hrest c rfl
      rw [lexFrom, step, if_neg (by rw [hc]; exact Bool.false_ne_true), if_neg hname,
        bind_map_stepStart]
  | cons c more ih =>
    rw [List.all_cons, Bool.and_eq_true] at hmore
    rw [List.append_cons] at hname
    rw [List.cons_append, lexFrom, step, if_pos hmore.1, Option.bind_some, ih hname hmore.2,
      List.append_assoc, List.singleton_append]
    exact map_nil_append _

/-- **A parameter.** -/
theorem lexFrom_param {name : List Char} (hne : name ≠ []) (hname : name.all isWordChar = true)
    (hrest : EndsWord rest) : lexFrom q .start ('@' :: name ++ rest)
      = (lexFrom q .start rest).map (Token.param name :: ·) := by
  rw [List.cons_append, lexFrom]
  show (some ([], Mode.param [])).bind _ = _
  rw [Option.bind_some, @lexFrom_param_append q rest [] name hne hname hrest]
  exact map_nil_append _

end Tokens

/-! ## Between backticks -/

/-- What has been read of an identifier between backticks. -/
def Mode.name? : Mode → Option (List Char)
  | quoted name | escape name | digits _ name _ _ => some name
  | start | word _ | param _ => none

section Quoted

variable {q : Quoting} {m : Mode} {name text rest : List Char}

theorem name_of_readDigit {base left value : ℕ} {c : Char}
    (h : readDigit base name left value c = some m) :
    ∃ read, m.name? = some (name ++ read) ∧ read.length ≤ 1 := by
  unfold readDigit at h
  split_ifs at h
  · obtain ⟨d, _, rfl⟩ := Option.map_eq_some_iff.1 h
    exact ⟨[d], rfl, Nat.le_refl 1⟩
  · obtain rfl := Option.some.inj h
    exact ⟨[], (congrArg some (List.append_nil name)).symm, Nat.zero_le 1⟩

theorem name_of_stepEscape {c : Char} (h : stepEscape name c = some m) :
    ∃ read, m.name? = some (name ++ read) ∧ read.length ≤ 1 := by
  have hnone : some name = some (name ++ []) := congrArg some (List.append_nil name).symm
  unfold stepEscape at h
  split at h
  · obtain rfl := Option.some.inj h
    exact ⟨[_], rfl, Nat.le_refl 1⟩
  · split_ifs at h
    · obtain rfl := Option.some.inj h
      exact ⟨[], hnone, Nat.zero_le 1⟩
    · obtain rfl := Option.some.inj h
      exact ⟨[], hnone, Nat.zero_le 1⟩
    · obtain rfl := Option.some.inj h
      exact ⟨[], hnone, Nat.zero_le 1⟩
    · exact name_of_readDigit h

/-- **A character between backticks**, not a backtick itself, adds a character to the identifier or
none, and a backslash adds none. -/
theorem step_inside {c : Char} {r : List Token × Mode} (hname : m.name? = some name)
    (hc : c ≠ '\x60') (h : step q m c = some r) :
    r.1 = [] ∧ ∃ read, r.2.name? = some (name ++ read) ∧ read.length ≤ 1
      ∧ (m = .quoted name → if c = '\\' then read = [] else r.2 = .quoted (name ++ read)) := by
  cases m with
  | start => cases hname
  | word => cases hname
  | param => cases hname
  | quoted name' =>
    obtain rfl := Option.some.inj hname
    rw [step, if_neg hc] at h
    split_ifs at h with hbackslash
    · obtain rfl := Option.some.inj h
      refine ⟨rfl, [], (congrArg some (List.append_nil name')).symm, Nat.zero_le 1, fun _ => ?_⟩
      rw [if_pos hbackslash]
    · obtain ⟨d, _, rfl⟩ := Option.map_eq_some_iff.1 h
      refine ⟨rfl, [d], rfl, Nat.le_refl 1, fun _ => ?_⟩
      rw [if_neg hbackslash]
  | escape name' =>
    obtain rfl := Option.some.inj hname
    obtain ⟨m', hm', rfl⟩ := Option.map_eq_some_iff.1 h
    obtain ⟨read, hread, hle⟩ := name_of_stepEscape hm'
    exact ⟨rfl, read, hread, hle, fun h => by cases h⟩
  | digits base name' left value =>
    obtain rfl := Option.some.inj hname
    obtain ⟨m', hm', rfl⟩ := Option.map_eq_some_iff.1 h
    obtain ⟨read, hread, hle⟩ := name_of_readDigit hm'
    exact ⟨rfl, read, hread, hle, fun h => by cases h⟩

/-- Without another backtick the identifier does not end. -/
theorem lexFrom_inside (hm : m.name?.isSome = true) (hrest : '\x60' ∉ rest) :
    lexFrom q m rest = none := by
  induction rest generalizing m with
  | nil =>
    cases m with
    | start => cases hm
    | word => cases hm
    | param => cases hm
    | _ => rfl
  | cons c rest ih =>
    rw [List.mem_cons, not_or] at hrest
    obtain ⟨name, hname⟩ := Option.isSome_iff_exists.1 hm
    rw [lexFrom]
    cases hstep : step q m c with
    | none => rfl
    | some r =>
      obtain ⟨_, read, hread, _⟩ := step_inside hname (fun h => hrest.1 h.symm) hstep
      rw [Option.bind_some, ih (by rw [hread]; rfl) hrest.2]
      rfl

/-- **Escape sequences are shorter when they are read**, so an identifier is as long as its text
only without a backslash. By induction on the text. -/
theorem exists_of_lexFrom_inside {tokens : List Token} (hname : m.name? = some name)
    (htext : '\x60' ∉ text) (hrest : '\x60' ∉ rest)
    (h : lexFrom q m (text ++ '\x60' :: rest) = some tokens) :
    ∃ read tokens', tokens = .quoted (name ++ read) :: tokens' ∧ name ++ read ≠ []
      ∧ lexFrom q .start rest = some tokens'
      ∧ read.length ≤ text.length
      ∧ (m = .quoted name → '\\' ∈ text → read.length < text.length) := by
  induction text generalizing m name with
  | nil =>
    rw [List.nil_append, lexFrom] at h
    -- after an escape sequence that has not ended, the backtick is part of the identifier
    have hlost : ∀ {m' : Option Mode}, (∀ m'' ∈ m', m''.name?.isSome = true) →
        (m'.map (fun m => (([] : List Token), m))).bind
          (fun r => (lexFrom q r.2 rest).map (r.1 ++ ·)) = none := by
      intro m' hm'
      cases m' with
      | none => rfl
      | some m'' =>
        rw [Option.map_some, Option.bind_some, lexFrom_inside (hm' m'' rfl) hrest]
        rfl
    cases m with
    | start => cases hname
    | word => cases hname
    | param => cases hname
    | quoted name' =>
      obtain rfl := Option.some.inj hname
      rw [step, if_pos rfl] at h
      by_cases hne : name' = []
      · rw [if_pos hne] at h
        cases h
      rw [if_neg hne] at h
      obtain ⟨tokens', htokens', rfl⟩ := Option.map_eq_some_iff.1 h
      refine ⟨[], tokens', ?_, ?_, htokens', Nat.le_refl 0,
        fun _ hmem => absurd hmem List.not_mem_nil⟩
      · rw [List.append_nil]
        rfl
      · rwa [List.append_nil]
    | escape name' =>
      rw [step, hlost (fun m'' hm'' => ?_)] at h
      · cases h
      · obtain ⟨read, hread, _⟩ := name_of_stepEscape hm''
        rw [hread]
        rfl
    | digits base name' left value =>
      rw [step, hlost (fun m'' hm'' => ?_)] at h
      · cases h
      · obtain ⟨read, hread, _⟩ := name_of_readDigit hm''
        rw [hread]
        rfl
  | cons c text ih =>
    rw [List.mem_cons, not_or] at htext
    rw [List.cons_append, lexFrom] at h
    cases hstep : step q m c with
    | none =>
      rw [hstep] at h
      cases h
    | some r =>
      obtain ⟨hnone, read, hread, hle, hquoted⟩ :=
        step_inside hname (fun h => htext.1 h.symm) hstep
      rw [hstep, Option.bind_some, hnone, map_nil_append] at h
      obtain ⟨read', tokens', htokens, hne, hrest', hle', hlt'⟩ := ih hread htext.2 h
      refine ⟨read ++ read', tokens', ?_, ?_, hrest', ?_, fun hm hmem => ?_⟩
      · rw [htokens, List.append_assoc]
      · rwa [← List.append_assoc]
      · rw [List.length_append, List.length_cons]
        omega
      · rw [List.length_append, List.length_cons]
        have hcase := hquoted hm
        split_ifs at hcase with hc
        · rw [hcase, List.length_nil]
          omega
        · have hlt := hlt' hcase ((List.mem_cons.1 hmem).resolve_left (fun h => hc h.symm))
          omega

/-- Without a backslash each character is read on its own. By induction on the text. -/
theorem lexFrom_quoted_iff {tokens : List Token} (htext : '\x60' ∉ text) (hplain : '\\' ∉ text) :
    lexFrom q (.quoted name) (text ++ '\x60' :: rest) = some tokens
      ↔ ∃ read tokens', List.Forall₂ (fun c d => q.raw c = some d) text read
        ∧ name ++ read ≠ [] ∧ tokens = .quoted (name ++ read) :: tokens'
        ∧ lexFrom q .start rest = some tokens' := by
  induction text generalizing name with
  | nil =>
    rw [List.nil_append, lexFrom, step, if_pos rfl]
    constructor
    · intro h
      by_cases hne : name = []
      · rw [if_pos hne] at h
        cases h
      rw [if_neg hne] at h
      obtain ⟨tokens', htokens', rfl⟩ := Option.map_eq_some_iff.1 h
      refine ⟨[], tokens', .nil, ?_, ?_, htokens'⟩
      · rwa [List.append_nil]
      · rw [List.append_nil]
        rfl
    · rintro ⟨_, tokens', ⟨⟩, hne, rfl, htokens'⟩
      rw [List.append_nil] at hne ⊢
      rw [if_neg hne, Option.bind_some, htokens']
      rfl
  | cons c text ih =>
    rw [List.mem_cons, not_or] at htext hplain
    rw [List.cons_append, lexFrom, step, if_neg (fun h => htext.1 h.symm),
      if_neg (fun h => hplain.1 h.symm)]
    cases hraw : q.raw c with
    | none =>
      refine iff_of_false (fun h => by cases h) ?_
      rintro ⟨_, _, hall, _⟩
      cases hall with
      | cons hc _ => cases hraw.symm.trans hc
    | some d =>
      rw [Option.map_some, Option.bind_some, map_nil_append, ih htext.2 hplain.2]
      constructor
      · rintro ⟨read, tokens', hall, hne, rfl, hrest⟩
        rw [List.append_assoc] at hne ⊢
        exact ⟨d :: read, tokens', .cons hraw hall, hne, rfl, hrest⟩
      · rintro ⟨_, tokens', hall, hne, rfl, hrest⟩
        cases hall with
        | @cons _ d' _ read hc hall =>
          obtain rfl := Option.some.inj (hraw.symm.trans hc)
          rw [List.append_cons] at hne
          refine ⟨read, tokens', hall, hne, ?_, hrest⟩
          rw [List.append_cons]

/-- **What is between backticks is read as itself** exactly where there is no backslash in it and
each character stands for itself. -/
theorem lexFrom_quote_iff {tokens : List Token} (hne : text ≠ []) (htext : '\x60' ∉ text)
    (hrest : '\x60' ∉ rest) :
    lexFrom q .start ('\x60' :: text ++ '\x60' :: rest) = some (.quoted text :: tokens)
      ↔ ('\\' ∉ text ∧ ∀ c ∈ text, q.raw c = some c) ∧ lexFrom q .start rest = some tokens := by
  have hopen : lexFrom q .start ('\x60' :: text ++ '\x60' :: rest)
      = lexFrom q (.quoted []) (text ++ '\x60' :: rest) := by
    rw [List.cons_append, lexFrom]
    exact map_nil_append _
  rw [hopen]
  constructor
  · intro h
    obtain ⟨read, tokens', heq, _, _, _, hlt⟩ := exists_of_lexFrom_inside rfl htext hrest h
    obtain ⟨hread, _⟩ := List.cons.inj heq
    have hplain : '\\' ∉ text := by
      intro hmem
      have hshorter := hlt rfl hmem
      rw [Token.quoted.inj hread] at hshorter
      exact Nat.lt_irrefl _ hshorter
    obtain ⟨read', tokens'', hall, _, heq', hrest'⟩ := (lexFrom_quoted_iff htext hplain).1 h
    obtain ⟨hread', rfl⟩ := List.cons.inj heq'
    obtain rfl : text = read' := Token.quoted.inj hread'
    exact ⟨⟨hplain, List.forall₂_same.1 hall⟩, hrest'⟩
  · rintro ⟨⟨hplain, hraw⟩, hrest'⟩
    exact (lexFrom_quoted_iff htext hplain).2
      ⟨text, tokens, List.forall₂_same.2 hraw, hne, rfl, hrest'⟩

end Quoted

end GoogleSql

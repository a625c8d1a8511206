import Mathlib.Algebra.GroupWithZero.Nat
import Mathlib.Data.List.Basic
import Mathlib.Data.List.Flatten
import Mathlib.Data.List.Infix
import Mathlib.Tactic.Common

/-!
# Delimited identifiers in SQL

What PostgreSQL's lexer makes of a text in which identifiers stand between double quotes. A
double quote within such an identifier is written twice; an identifier of no characters is
an error, and so is one that is not closed. Of a name of more than 63 bytes the lexer keeps
as many characters from the front as fit into 63. No statement contains a character NUL.

Of what is not a delimited identifier nothing is needed here but that it is something else:
a dot, or some other character.

A name between double quotes, with its own double quotes doubled (`delimit`), is read as
this name and as nothing else, whatever follows it (`lexFrom_delimit`).
-/

namespace PostgresLexer

/-! ## Names -/

/-- As many characters from the front as fit into `n` bytes of UTF-8. -/
def clip : ℕ → List Char → List Char
  | _, [] => []
  | n, c :: cs => if c.utf8Size ≤ n then c :: clip (n - c.utf8Size) cs else []

/-- How many bytes a name has. -/
def byteLength (name : List Char) : ℕ := (name.map Char.utf8Size).sum

/-- `NAMEDATALEN - 1`. -/
def maxIdentifierBytes : ℕ := 63

/-- **What the lexer keeps of a name.** -/
def truncateIdentifier (name : List Char) : List Char := clip maxIdentifierBytes name

theorem clip_eq_self : ∀ {n : ℕ} {name : List Char}, byteLength name ≤ n → clip n name = name
  | _, [], _ => rfl
  | n, c :: cs, h => by
    have hsum : c.utf8Size + byteLength cs ≤ n := by simpa [byteLength] using h
    have hc : c.utf8Size ≤ n := by omega
    have hcs : byteLength cs ≤ n - c.utf8Size := by omega
    simp [clip, hc, clip_eq_self hcs]

/-- A name that is not too long is kept. -/
theorem truncateIdentifier_eq_self {name : List Char}
    (h : byteLength name ≤ maxIdentifierBytes) : truncateIdentifier name = name :=
  clip_eq_self h

/-! ## The lexer -/

/-- What a text is read as. -/
inductive Token where
  | ident (name : List Char)
  | dot
  | other (c : Char)
  deriving DecidableEq

/-- **The lexer.** Between double quotes it has the characters of the name so far. -/
def lexFrom : Option (List Char) → List Char → Option (List Token)
  | none, [] => some []
  | some _, [] => none
  | none, '"' :: rest => lexFrom (some []) rest
  | some name, '"' :: '"' :: rest => lexFrom (some (name ++ ['"'])) rest
  | some name, '"' :: rest =>
    if name = [] then none
    else (lexFrom none rest).map (Token.ident (truncateIdentifier name) :: ·)
  | inside, c :: rest =>
    if c = '\x00' then none
    else
      match inside with
      | some name => lexFrom (some (name ++ [c])) rest
      | none => (lexFrom none rest).map ((if c = '.' then Token.dot else Token.other c) :: ·)

/-- The tokens of a text. -/
def lex (text : List Char) : Option (List Token) := lexFrom none text

theorem lexFrom_dot (rest : List Char) :
    lexFrom none ('.' :: rest) = (lex rest).map (Token.dot :: ·) := by
  simp [lexFrom, lex]

theorem lexFrom_some_of_ne {name : List Char} {c : Char} (rest : List Char) (hquote : c ≠ '"')
    (hnul : c ≠ '\x00') : lexFrom (some name) (c :: rest) = lexFrom (some (name ++ [c])) rest := by
  rw [lexFrom, if_neg hnul]
  all_goals simp [hquote]

/-! ## Writing names -/

/-- Every double quote is written twice. -/
def double (name : List Char) : List Char :=
  name.flatMap (fun c => if c = '"' then ['"', '"'] else [c])

@[simp]
theorem double_nil : double [] = [] := rfl

@[simp]
theorem double_quote (cs : List Char) : double ('"' :: cs) = '"' :: '"' :: double cs := rfl

theorem double_cons_of_ne {c : Char} (cs : List Char) (h : c ≠ '"') :
    double (c :: cs) = c :: double cs := by
  simp [double, h]

/-- **A name as a delimited identifier.** -/
def delimit (name : List Char) : List Char := '"' :: double name ++ ['"']

/-- A name that is closed here. -/
theorem lexFrom_close {name : List Char} (rest : List Char) (hname : name ≠ [])
    (hrest : ∀ cs, rest ≠ '"' :: cs) :
    lexFrom (some name) ('"' :: rest)
      = (lex rest).map (Token.ident (truncateIdentifier name) :: ·) := by
  rw [lexFrom, if_neg hname]
  · rfl
  · exact hrest

/-- The characters of a name, and what it takes to close it. -/
theorem lexFrom_double {rest : List Char} (hrest : ∀ cs, rest ≠ '"' :: cs) :
    ∀ {name : List Char} (before : List Char), '\x00' ∉ name → before ++ name ≠ [] →
      lexFrom (some before) (double name ++ '"' :: rest)
        = (lex rest).map (Token.ident (truncateIdentifier (before ++ name)) :: ·)
  | [], before, _, hne => by
    rw [double_nil, List.nil_append, List.append_nil]
    exact lexFrom_close rest (by simpa using hne) hrest
  | c :: cs, before, hnul, _ => by
    have hc : c ≠ '\x00' := fun h => hnul (by simp [h])
    have hcs : '\x00' ∉ cs := fun h => hnul (List.mem_cons_of_mem c h)
    have ih := lexFrom_double hrest (before ++ [c]) hcs (by simp)
    rw [List.append_assoc, List.singleton_append] at ih
    by_cases hquote : c = '"'
    · subst hquote
      rw [double_quote]
      show lexFrom (some (before ++ ['"'])) (double cs ++ '"' :: rest) = _
      exact ih
    · rw [double_cons_of_ne cs hquote, List.cons_append, lexFrom_some_of_ne _ hquote hc]
      exact ih

/-- **A delimited name is read as this name**, and then what follows is read. -/
theorem lex_delimit {name rest : List Char} (hname : name ≠ []) (hnul : '\x00' ∉ name)
    (hrest : ∀ cs, rest ≠ '"' :: cs) :
    lex (delimit name ++ rest)
      = (lex rest).map (Token.ident (truncateIdentifier name) :: ·) := by
  have hclose : delimit name ++ rest = '"' :: (double name ++ '"' :: rest) := by
    simp [delimit]
  rw [hclose]
  exact lexFrom_double hrest [] hnul hname

/-! ## Paths -/

/-- What a path of names is read as. -/
def pathTokens (names : List (List Char)) : List Token :=
  (names.map Token.ident).intersperse Token.dot

/-- A path of delimited names. -/
def delimitPath (names : List (List Char)) : List Char :=
  ['.'].intercalate (names.map delimit)

/-- **A path of delimited names is read as the path of these names**, or what the lexer keeps
of them. -/
theorem lex_delimitPath : ∀ {names : List (List Char)},
    (∀ name ∈ names, name ≠ [] ∧ '\x00' ∉ name) →
      lex (delimitPath names) = some (pathTokens (names.map truncateIdentifier))
  | [], _ => rfl
  | [name], h => by
    obtain ⟨hne, hnul⟩ := h name List.mem_cons_self
    have hone : delimitPath [name] = delimit name ++ [] := by
      simp [delimitPath]
    rw [hone, lex_delimit hne hnul (by simp)]
    rfl
  | name :: next :: names, h => by
    obtain ⟨hne, hnul⟩ := h name List.mem_cons_self
    have ih := lex_delimitPath (fun n hn => h n (List.mem_cons_of_mem name hn))
    have hcons : delimitPath (name :: next :: names)
        = delimit name ++ '.' :: delimitPath (next :: names) := by
      simp [delimitPath, List.intercalate]
    rw [hcons, lex_delimit hne hnul (by simp), lex, lexFrom_dot, ih]
    rfl

end PostgresLexer

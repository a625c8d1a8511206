import AgoraPlugins.Fallible
import AgoraPlugins.PostgresLexer

/-!
# SQL identifiers

A table or a column is named by a string, or by a `QuotedIdentifier` that has its parts. A
string is a plain name or, where this is allowed, a name between double quotes; a table may
have a schema before it. `_quote_identifier` makes delimited identifiers of all of them, and
these go into the text of statements as they are.

What may be written is said by `Spelled`, which knows nothing of how strings are split. The
code accepts what is spelled so and raises a `ValueError` for any other string. What it
makes of it is read by PostgreSQL as a path of the one or two parts, whatever characters are
in them, and read by the code itself as the same parts again. One thing the code does not
look at is the length of a name: the database keeps 63 bytes.
-/

open PostgresLexer Fallible

namespace Identifiers

/-- A Python string. -/
abbrev Text := List Char

structure ValueError where
  message : String
  deriving DecidableEq

/-- `_validate_raw_quoted_identifier_part` lets a part pass. -/
def ValidPart (part : Text) : Prop := part ≠ [] ∧ '\x00' ∉ part

instance (part : Text) : Decidable (ValidPart part) :=
  inferInstanceAs (Decidable (_ ∧ _))

/-- **`QuotedIdentifier`.** -/
structure QuotedIdentifier where
  parts : List Text
  parts_ne : parts ≠ []
  valid : ∀ part ∈ parts, ValidPart part

/-- What names a table or a column. -/
inductive Identifier where
  | text (s : Text)
  | quoted (q : QuotedIdentifier)

section Code

-- Python's `repr`, for the texts of errors
variable (repr : Identifier → String)

/-! ## The code -/

def invalid (identifier : Identifier) (hint : String) : ValueError :=
  ⟨"Invalid SQL identifier: " ++ repr identifier ++ hint⟩

/-- `_validate_raw_quoted_identifier_part`. -/
def validateRawQuotedIdentifierPart (part : Text) : Except ValueError Unit :=
  if part = [] ∨ '\x00' ∈ part then
    .error ⟨"Invalid SQL identifier part: " ++ repr (.text part)⟩
  else .ok ()

/-- `QuotedIdentifier(*parts)`, whose error names the first part that is not valid. -/
def QuotedIdentifier.ofParts (parts : List Text) : Except ValueError QuotedIdentifier :=
  if hne : parts = [] then
    .error ⟨"QuotedIdentifier requires at least one identifier part."⟩
  else if hvalid : ∀ part ∈ parts, ValidPart part then .ok ⟨parts, hne, hvalid⟩
  else
    let part := (parts.find? (fun part => ¬ ValidPart part)).getD []
    .error ⟨"Invalid SQL identifier part: " ++ repr (.text part)⟩

/-- `_quote_raw_identifier_part`. -/
def quoteRawIdentifierPart (part : Text) : Except ValueError Text := do
  validateRawQuotedIdentifierPart repr part
  pure ('"' :: double part ++ ['"'])

/-- The loop of `_split_identifier_path`: what is left of the identifier, the part being
read, and whether it is between quotes. -/
def splitFrom (identifier : Text) : Text → Text → Bool → Except ValueError (List Text)
  | [], _, true => .error (invalid repr (.text identifier) ". Unterminated quoted part.")
  | [], current, false => .ok [current]
  | '"' :: '"' :: rest, current, true => splitFrom identifier rest (current ++ ['"', '"']) true
  | '"' :: rest, current, inQuote => splitFrom identifier rest (current ++ ['"']) !inQuote
  | '.' :: rest, current, false => (splitFrom identifier rest [] false).map (current :: ·)
  | char :: rest, current, inQuote => splitFrom identifier rest (current ++ [char]) inQuote

-- A dot between quotes does not end a part.
example (identifier : Text) : splitFrom repr identifier "\"a.b\".c".toList [] false
    = .ok ["\"a.b\"".toList, "c".toList] := by
  simp [splitFrom, Except.map]

/-- **`_split_identifier_path`.** -/
def splitIdentifierPath (identifier : Text) (allowPath : Bool) : Except ValueError (List Text) :=
  if allowPath then splitFrom repr identifier identifier [] false else .ok [identifier]

/-- The loop of `_unquote_identifier_part`, over what is between the first character and the
last. -/
def unquoteFrom (identifier : Text) : Text → Except ValueError Text
  | [] => .ok []
  | '"' :: '"' :: rest => (unquoteFrom identifier rest).map ('"' :: ·)
  | '"' :: _ => .error (invalid repr (.text identifier)
      ". Embedded double quotes must be escaped as two double quotes.")
  | char :: rest => (unquoteFrom identifier rest).map (char :: ·)

/-- **`_unquote_identifier_part`.** -/
def unquoteIdentifierPart (identifier part : Text) : Except ValueError Text :=
  if part.head? = some '"' ∧ part.getLast? = some '"' ∧ 2 ≤ part.length then
    unquoteFrom repr identifier (part.drop 1).dropLast
  else .error (invalid repr (.text identifier)
    ". Quoted identifier parts must start and end with a double quote.")

/-- `_IDENTIFIER_RE` matches all of it. -/
def isPlain : Text → Bool
  | [] => false
  | c :: cs => (c.isAlpha || c = '_') && cs.all (fun c => c.isAlphanum || c = '_')

/-- A part of a string, unquoted. -/
def normalizePart (identifier : Text) (allowQuoted : Bool) (part : Text) :
    Except ValueError Text :=
  if part.head? = some '"' then
    if allowQuoted then unquoteIdentifierPart repr identifier part
    else .error (invalid repr (.text identifier)
      ". Quoted identifiers require allow_quoted_identifiers=True.")
  else if part.getLast? = some '"' then .error (invalid repr (.text identifier) "")
  else if isPlain part then .ok part
  else .error (invalid repr (.text identifier)
    (". Only letters, numbers, and underscores are allowed, "
      ++ "and identifiers must not start with a number."))

/-- The parts of an identifier as they are written. -/
def writtenParts (identifier : Identifier) (allowPath allowQuoted : Bool) :
    Except ValueError (List Text) :=
  match identifier with
  | .quoted q => .ok q.parts
  | .text s =>
    if allowQuoted then splitIdentifierPath repr s allowPath
    else .ok (if allowPath then s.splitOn '.' else [s])

/-- **`_identifier_parts`.** -/
def identifierParts (identifier : Identifier) (allowPath allowQuoted : Bool) :
    Except ValueError (List Text) := do
  let parts ← writtenParts repr identifier allowPath allowQuoted
  if parts = [] ∨ [] ∈ parts then .error (invalid repr identifier "")
  else if allowPath ∧ 2 < parts.length then .error (invalid repr identifier
    ". Only schema.table paths are supported (max 2 parts).")
  else if ¬ allowPath ∧ 1 < parts.length then .error (invalid repr identifier "")
  else do
    let normalized ← match identifier with
      | .quoted _ => .ok parts
      | .text s => parts.mapM (normalizePart repr s allowQuoted)
    normalized.forM (validateRawQuotedIdentifierPart repr)
    pure normalized

/-- **`_quote_identifier`.** -/
def quoteIdentifier (identifier : Identifier) (allowPath allowQuoted : Bool) :
    Except ValueError Text := do
  let parts ← identifierParts repr identifier allowPath allowQuoted
  let quoted ← parts.mapM (quoteRawIdentifierPart repr)
  pure (['.'].intercalate quoted)

end Code

/-! ## What may be written -/

/-- **A part may be written** plainly, or delimited where this is allowed. -/
inductive SpelledPart (allowQuoted : Bool) : Text → Text → Prop
  | plain {part : Text} : isPlain part = true → SpelledPart allowQuoted part part
  | delimited {part : Text} : allowQuoted = true → ValidPart part →
      SpelledPart allowQuoted (delimit part) part

/-- **A string that names these parts.** -/
inductive Spelled (allowPath allowQuoted : Bool) : Text → List Text → Prop
  | one {s part : Text} : SpelledPart allowQuoted s part →
      Spelled allowPath allowQuoted s [part]
  | path {s t schema table : Text} : allowPath = true → SpelledPart allowQuoted s schema →
      SpelledPart allowQuoted t table →
      Spelled allowPath allowQuoted (s ++ '.' :: t) [schema, table]

/-! ## A part -/

variable {repr : Identifier → String} {identifier s t raw part : Text} {parts : List Text}
variable {allowPath allowQuoted : Bool}

theorem unquoteFrom_of_ne {c : Char} (hquote : c ≠ '"') :
    unquoteFrom repr identifier (c :: s) = (unquoteFrom repr identifier s).map (c :: ·) := by
  rw [unquoteFrom] <;> simp [hquote]

/-- **What is unquoted** is a part with its double quotes doubled, and no other text. -/
theorem unquoteFrom_eq_ok_iff :
    unquoteFrom repr identifier s = .ok raw ↔ s = double raw := by
  constructor
  · intro h
    induction s using unquoteFrom.induct generalizing raw with
    | case1 =>
      rw [unquoteFrom, Except.ok.injEq] at h
      rw [← h, double_nil]
    | case2 rest ih =>
      rw [unquoteFrom, map_eq_ok_iff] at h
      obtain ⟨tail, htail, rfl⟩ := h
      rw [double_quote, ← ih htail]
    | case3 rest hnot =>
      rw [unquoteFrom] at h
      · cases h
      · exact hnot
    | case4 char rest _ hquote ih =>
      rw [unquoteFrom_of_ne hquote, map_eq_ok_iff] at h
      obtain ⟨tail, htail, rfl⟩ := h
      rw [double_cons_of_ne _ hquote, ← ih htail]
  · rintro rfl
    induction raw with
    | nil => rfl
    | cons c cs ih =>
      by_cases hquote : c = '"'
      · subst hquote
        rw [double_quote, unquoteFrom, ih]
        rfl
      · rw [double_cons_of_ne cs hquote, unquoteFrom_of_ne hquote, ih]
        rfl

/-- A text that begins and ends with different double quotes. -/
theorem eq_cons_append_singleton_iff {c : Char} :
    part.head? = some c ∧ part.getLast? = some c ∧ 2 ≤ part.length
      ↔ ∃ middle, part = c :: middle ++ [c] := by
  constructor
  · rintro ⟨hhead, hlast, hlength⟩
    obtain ⟨rest, rfl⟩ : ∃ rest, part = c :: rest := by
      cases part with
      | nil => simp at hhead
      | cons d rest => exact ⟨rest, by simp_all⟩
    have hrest : rest ≠ [] := by
      rintro rfl
      simp at hlength
    refine ⟨rest.dropLast, ?_⟩
    rw [List.getLast?_cons_of_ne_nil hrest] at hlast
    rw [List.cons_append, List.dropLast_append_getLast? c hlast]
  · rintro ⟨middle, rfl⟩
    exact ⟨rfl, List.getLast?_concat, by simp⟩

/-- **A part between double quotes.** -/
theorem unquoteIdentifierPart_eq_ok_iff :
    unquoteIdentifierPart repr identifier part = .ok raw ↔ part = delimit raw := by
  unfold unquoteIdentifierPart delimit
  by_cases hpart : part.head? = some '"' ∧ part.getLast? = some '"' ∧ 2 ≤ part.length
  · rw [if_pos hpart, unquoteFrom_eq_ok_iff]
    obtain ⟨middle, rfl⟩ := eq_cons_append_singleton_iff.1 hpart
    simp
  · rw [if_neg hpart]
    constructor
    · intro h
      cases h
    · intro h
      exact absurd (eq_cons_append_singleton_iff.2 ⟨double raw, h⟩) hpart

theorem head?_isPlain (h : isPlain part = true) : part.head? ≠ some '"' := by
  match part with
  | c :: cs =>
    intro hc
    simp [isPlain, Option.some.inj hc] at h

/-- No character of a plain name is one that means something else. -/
theorem notMem_of_isPlain {c : Char} (hc : c.isAlphanum = false) (hc' : c ≠ '_')
    (h : isPlain part = true) : c ∉ part := by
  match part with
  | d :: cs =>
    simp only [isPlain, Bool.and_eq_true, Bool.or_eq_true, decide_eq_true_eq,
      List.all_eq_true] at h
    intro hmem
    obtain rfl | hmem := List.mem_cons.1 hmem
    · have hd : c.isAlpha = true := h.1.resolve_right hc'
      simp [Char.isAlphanum, hd] at hc
    · have hd : c.isAlphanum = true := (h.2 c hmem).resolve_right hc'
      rw [hc] at hd
      cases hd

theorem validPart_of_isPlain (h : isPlain part = true) : ValidPart part := by
  refine ⟨?_, notMem_of_isPlain (by decide) (by decide) h⟩
  rintro rfl
  simp [isPlain] at h

theorem SpelledPart.validPart (h : SpelledPart allowQuoted s part) : ValidPart part := by
  cases h with
  | plain hplain => exact validPart_of_isPlain hplain
  | delimited _ hvalid => exact hvalid

theorem SpelledPart.ne_nil (h : SpelledPart allowQuoted s part) : s ≠ [] := by
  cases h with
  | plain hplain => exact (validPart_of_isPlain hplain).1
  | delimited _ _ => simp [delimit]

/-- **A part is normalised** if it may be written, and to what it stands for. -/
theorem normalizePart_eq_ok_iff :
    normalizePart repr identifier allowQuoted s = .ok part ∧ ValidPart part
      ↔ SpelledPart allowQuoted s part := by
  constructor
  · rintro ⟨h, hvalid⟩
    unfold normalizePart at h
    split at h
    · split at h
      · rename_i hallowed
        rw [unquoteIdentifierPart_eq_ok_iff] at h
        exact h ▸ .delimited hallowed hvalid
      · cases h
    · split at h
      · cases h
      · split at h
        · rename_i hplain
          cases h
          exact .plain hplain
        · cases h
  · intro h
    refine ⟨?_, h.validPart⟩
    cases h with
    | plain hplain =>
      have hlast : s.getLast? ≠ some '"' := fun h =>
        notMem_of_isPlain (by decide) (by decide) hplain (List.mem_of_getLast? h)
      unfold normalizePart
      rw [if_neg (head?_isPlain hplain), if_neg hlast, if_pos hplain]
    | delimited hallowed _ =>
      have hhead : (delimit part).head? = some '"' := rfl
      unfold normalizePart
      rw [if_pos hhead, if_pos hallowed, unquoteIdentifierPart_eq_ok_iff]

/-! ## Where a string is split -/

theorem splitFrom_of_ne {c : Char} {current : Text} {inQuote : Bool} (hquote : c ≠ '"')
    (hdot : c ≠ '.' ∨ inQuote = true) :
    splitFrom repr identifier (c :: s) current inQuote
      = splitFrom repr identifier s (current ++ [c]) inQuote := by
  rw [splitFrom]
  · exact hquote
  · exact fun _ _ h => absurd h hquote
  · rintro rfl rfl
    simp at hdot

/-- **The parts with dots between them** are the string. -/
theorem intercalate_of_splitFrom {current : Text} {inQuote : Bool}
    (h : splitFrom repr identifier s current inQuote = .ok parts) :
    parts ≠ [] ∧ ['.'].intercalate parts = current ++ s := by
  induction s, current, inQuote using splitFrom.induct generalizing parts with
  | case1 current =>
    rw [splitFrom] at h
    cases h
  | case2 current =>
    rw [splitFrom, Except.ok.injEq] at h
    simp [← h]
  | case3 rest current ih =>
    rw [splitFrom] at h
    simpa using ih h
  | case4 current inQuote rest hnot ih =>
    rw [splitFrom] at h
    · simpa using ih h
    · exact hnot
  | case5 current rest ih =>
    rw [splitFrom, map_eq_ok_iff] at h
    obtain ⟨tail, htail, rfl⟩ := h
    obtain ⟨hne, hjoin⟩ := ih htail
    match tail with
    | part :: tail =>
      refine ⟨List.cons_ne_nil _ _, ?_⟩
      rw [List.intercalate_cons_cons, hjoin]
      simp
  | case6 current inQuote char rest h1 h2 h3 ih =>
    rw [splitFrom] at h
    · simpa using ih h
    · exact h2
    · exact h1
    · exact h3

theorem splitFrom_append_of_plain : ∀ {s : Text} (current : Text), (∀ c ∈ s, c ≠ '"' ∧ c ≠ '.') →
    splitFrom repr identifier (s ++ t) current false
      = splitFrom repr identifier t (current ++ s) false
  | [], current, _ => by simp
  | c :: cs, current, h => by
    obtain ⟨hquote, hdot⟩ := h c List.mem_cons_self
    have ih := @splitFrom_append_of_plain cs (current ++ [c])
      (fun d hd => h d (List.mem_cons_of_mem c hd))
    rw [List.cons_append, splitFrom_of_ne hquote (.inl hdot), ih, List.append_assoc,
      List.singleton_append]

/-- A double quote that is not doubled ends the quoted part. -/
theorem splitFrom_close (current : Text) (ht : ∀ cs, t ≠ '"' :: cs) :
    splitFrom repr identifier ('"' :: t) current true
      = splitFrom repr identifier t (current ++ ['"']) false := by
  rw [splitFrom]
  · rfl
  · exact fun cs _ hcs => ht cs hcs

theorem splitFrom_double (ht : ∀ cs, t ≠ '"' :: cs) : ∀ {s : Text} (current : Text),
    splitFrom repr identifier (double s ++ '"' :: t) current true
      = splitFrom repr identifier t (current ++ double s ++ ['"']) false
  | [], current => by
    rw [double_nil, List.nil_append, List.append_nil]
    exact splitFrom_close current ht
  | c :: cs, current => by
    by_cases hquote : c = '"'
    · subst hquote
      rw [double_quote, List.cons_append, List.cons_append, splitFrom, splitFrom_double ht]
      simp
    · rw [double_cons_of_ne cs hquote, List.cons_append, splitFrom_of_ne hquote (.inr rfl),
        splitFrom_double ht]
      simp

/-- **A part is not split.** -/
theorem splitFrom_spelledPart (h : SpelledPart allowQuoted s part) (ht : ∀ cs, t ≠ '"' :: cs) :
    splitFrom repr identifier (s ++ t) [] false = splitFrom repr identifier t s false := by
  cases h with
  | plain hplain =>
    have hquote : '"' ∉ s := notMem_of_isPlain (by decide) (by decide) hplain
    have hdot : '.' ∉ s := notMem_of_isPlain (by decide) (by decide) hplain
    rw [splitFrom_append_of_plain, List.nil_append]
    intro c hc
    refine ⟨?_, ?_⟩
    · rintro rfl
      exact hquote hc
    · rintro rfl
      exact hdot hc
  | delimited _ _ =>
    have hopen : delimit part ++ t = '"' :: (double part ++ '"' :: t) := by
      simp [delimit]
    have hstart : splitFrom repr identifier ('"' :: (double part ++ '"' :: t)) [] false
        = splitFrom repr identifier (double part ++ '"' :: t) ['"'] true := by
      rw [splitFrom]
      · rfl
      · simp
    rw [hopen, hstart, splitFrom_double ht]
    rfl

/-! ## What is accepted -/

theorem splitOn_plain (hs : isPlain s = true) : '.' ∉ s :=
  notMem_of_isPlain (by decide) (by decide) hs

/-- A part that stands alone. -/
theorem writtenParts_spelledPart (h : SpelledPart allowQuoted s part) :
    writtenParts repr (.text s) allowPath allowQuoted = .ok [s] := by
  unfold writtenParts splitIdentifierPath
  have hsplit : splitFrom repr s s [] false = .ok [s] := by
    have happend := @splitFrom_spelledPart repr s s [] part allowQuoted h (by simp)
    rw [List.append_nil] at happend
    rw [happend, splitFrom]
  cases allowPath with
  | false => simp
  | true =>
    cases h with
    | plain hplain => simp [hsplit, List.splitOn_eq_singleton (splitOn_plain hplain)]
    | delimited hallowed _ => simp [hsplit, hallowed]

/-- A part after another. -/
theorem writtenParts_path {schema table : Text} (hs : SpelledPart allowQuoted s schema)
    (ht : SpelledPart allowQuoted t table) :
    writtenParts repr (.text (s ++ '.' :: t)) true allowQuoted = .ok [s, t] := by
  cases allowQuoted with
  | true =>
    have hsplit : ∀ identifier, splitFrom repr identifier t [] false = .ok [t] := by
      intro identifier
      have happend := @splitFrom_spelledPart repr identifier t [] table true ht (by simp)
      rw [List.append_nil] at happend
      rw [happend, splitFrom]
    unfold writtenParts splitIdentifierPath
    simp only [if_true]
    rw [splitFrom_spelledPart hs (by simp), splitFrom, hsplit]
    rfl
  | false =>
    cases hs with
    | delimited hallowed _ => cases hallowed
    | plain hs =>
      cases ht with
      | delimited hallowed _ => cases hallowed
      | plain ht =>
        unfold writtenParts
        simp [List.splitOn_append_cons_self_of_not_mem (splitOn_plain hs),
          List.splitOn_eq_singleton (splitOn_plain ht)]

/-- What is split, and whether it is. -/
theorem intercalate_of_writtenParts
    (h : writtenParts repr (.text s) allowPath allowQuoted = .ok parts) :
    ['.'].intercalate parts = s ∧ (allowPath = false → parts = [s]) := by
  unfold writtenParts splitIdentifierPath at h
  cases allowPath with
  | true =>
    refine ⟨?_, by simp⟩
    cases allowQuoted with
    | true => exact (intercalate_of_splitFrom h).2
    | false =>
      cases h
      exact List.intercalate_splitOn '.'
  | false =>
    have hparts : parts = [s] := by
      cases allowQuoted with
      | true =>
        cases h
        rfl
      | false =>
        cases h
        rfl
    rw [hparts]
    simp

theorem validateRawQuotedIdentifierPart_eq_ok_iff :
    validateRawQuotedIdentifierPart repr part = .ok () ↔ ValidPart part := by
  unfold validateRawQuotedIdentifierPart ValidPart
  split
  · rename_i h
    simp only [reduceCtorEq, false_iff]
    exact fun hvalid => h.elim hvalid.1 hvalid.2
  · rename_i h
    simpa using not_or.1 h

/-- Parts that are normalised and valid. -/
theorem forall₂_spelledPart {written : List Text} :
    List.Forall₂ (fun w p => normalizePart repr identifier allowQuoted w = .ok p) written parts
        ∧ (∀ p ∈ parts, ValidPart p)
      ↔ List.Forall₂ (SpelledPart allowQuoted) written parts := by
  induction written generalizing parts with
  | nil => cases parts <;> simp
  | cons w written ih =>
    cases parts with
    | nil => simp
    | cons p parts =>
      rw [List.forall₂_cons, List.forall₂_cons, List.forall_mem_cons, ← ih,
        ← @normalizePart_eq_ok_iff repr identifier w p allowQuoted]
      tauto

theorem identifierParts_text_eq_ok_iff :
    identifierParts repr (.text s) allowPath allowQuoted = .ok parts
      ↔ ∃ written, writtenParts repr (.text s) allowPath allowQuoted = .ok written
        ∧ written ≠ [] ∧ [] ∉ written ∧ (2 < written.length → allowPath = false)
        ∧ (1 < written.length → allowPath = true)
        ∧ List.Forall₂ (SpelledPart allowQuoted) written parts := by
  unfold identifierParts
  rw [bind_eq_ok_iff]
  refine exists_congr (fun written => and_congr_right (fun _ => ?_))
  have hnormal : (do
      let normalized ← written.mapM (normalizePart repr s allowQuoted)
      normalized.forM (validateRawQuotedIdentifierPart repr)
      pure normalized) = .ok parts ↔ List.Forall₂ (SpelledPart allowQuoted) written parts := by
    have hvalid : ∀ ps : List Text, ps.forM (validateRawQuotedIdentifierPart repr) = .ok ⟨⟩
        ↔ ∀ p ∈ ps, ValidPart p := by
      intro ps
      rw [forM_eq_ok_iff]
      exact forall₂_congr (fun p _ => validateRawQuotedIdentifierPart_eq_ok_iff)
    rw [bind_eq_ok_iff, ← forall₂_spelledPart, ← mapM_eq_ok_iff, ← hvalid]
    constructor
    · rintro ⟨normalized, hnormalized, h⟩
      obtain ⟨_, hforM, h⟩ := bind_eq_ok_iff.1 h
      cases h
      exact ⟨hnormalized, hforM⟩
    · rintro ⟨hnormalized, hforM⟩
      exact ⟨parts, hnormalized, bind_eq_ok_iff.2 ⟨_, hforM, rfl⟩⟩
  split
  · rename_i hempty
    simp only [reduceCtorEq, false_iff]
    rintro ⟨hne, hnot, -⟩
    exact hempty.elim hne hnot
  · rename_i hempty
    obtain ⟨hne, hnot⟩ := not_or.1 hempty
    split
    · rename_i hlong
      simp [hlong]
    · rename_i hlong
      split
      · rename_i hone
        simp [hone]
      · rename_i hone
        refine hnormal.trans ?_
        cases allowPath
        · simp_all
        · simp_all

/-- **A string is accepted** if it may be written, and names the parts it is said to name. -/
theorem identifierParts_text_iff :
    identifierParts repr (.text s) allowPath allowQuoted = .ok parts
      ↔ Spelled allowPath allowQuoted s parts := by
  rw [identifierParts_text_eq_ok_iff]
  constructor
  · rintro ⟨written, hwritten, hne, _, htwo, hone, hspelled⟩
    obtain ⟨hjoin, _⟩ := intercalate_of_writtenParts hwritten
    match written, hspelled with
    | [w], .cons hw .nil =>
      rw [List.intercalate_singleton] at hjoin
      exact hjoin ▸ .one hw
    | [w, v], .cons hw (.cons hv .nil) =>
      rw [← hjoin, List.intercalate_cons_cons, List.intercalate_singleton, List.append_assoc]
      exact .path (hone (by simp)) hw hv
    | _ :: _ :: _ :: _, _ =>
      have hallow : allowPath = true := hone (by simp)
      rw [hallow] at htwo
      exact absurd (htwo (by simp)) (by decide)
  · intro h
    cases h with
    | one hpart =>
      exact ⟨[s], writtenParts_spelledPart hpart, by simp, by simpa using hpart.ne_nil.symm,
        by simp, by simp, .cons hpart .nil⟩
    | path hallow hs ht =>
      refine ⟨_, hallow ▸ writtenParts_path hs ht, by simp, ?_, by simp, by simp [hallow],
        .cons hs (.cons ht .nil)⟩
      simpa using ⟨hs.ne_nil, ht.ne_nil⟩

/-- The parts of a quoted identifier. -/
theorem identifierParts_quoted_iff {q : QuotedIdentifier} :
    identifierParts repr (.quoted q) allowPath allowQuoted = .ok parts
      ↔ q.parts.length ≤ (if allowPath then 2 else 1) ∧ parts = q.parts := by
  have hvalid : q.parts.forM (validateRawQuotedIdentifierPart repr) = .ok ⟨⟩ :=
    forM_eq_ok_iff.2 (fun p hp => validateRawQuotedIdentifierPart_eq_ok_iff.2 (q.valid p hp))
  have hne : [] ∉ q.parts := fun h => (q.valid [] h).1 rfl
  unfold identifierParts writtenParts
  dsimp only [bind, Except.bind]
  rw [hvalid]
  cases allowPath <;> simp [q.parts_ne, hne, pure, Except.pure, ite_error_eq_ok_iff]

/-- **What is accepted** has one part or two, and they are valid. -/
theorem of_identifierParts {identifier : Identifier}
    (h : identifierParts repr identifier allowPath allowQuoted = .ok parts) :
    (∀ p ∈ parts, ValidPart p) ∧ (parts.length = 1 ∨ parts.length = 2) := by
  cases identifier with
  | text s =>
    cases identifierParts_text_iff.1 h with
    | one hs => exact ⟨by simpa using hs.validPart, .inl rfl⟩
    | path _ hs ht => exact ⟨by simpa using ⟨hs.validPart, ht.validPart⟩, .inr rfl⟩
  | quoted q =>
    obtain ⟨hlength, rfl⟩ := identifierParts_quoted_iff.1 h
    refine ⟨q.valid, ?_⟩
    have hpos : 0 < q.parts.length := List.length_pos_iff.2 q.parts_ne
    split at hlength <;> omega

/-! ## What is made of it -/

/-- **The output** is a path of delimited identifiers. -/
theorem quoteIdentifier_eq_ok_iff {identifier : Identifier} {out : Text} :
    quoteIdentifier repr identifier allowPath allowQuoted = .ok out
      ↔ ∃ parts, identifierParts repr identifier allowPath allowQuoted = .ok parts
        ∧ out = delimitPath parts := by
  unfold quoteIdentifier
  rw [bind_eq_ok_iff]
  refine exists_congr (fun parts => and_congr_right (fun h => ?_))
  have hquoted : parts.mapM (quoteRawIdentifierPart repr) = .ok (parts.map delimit) := by
    rw [mapM_eq_ok_iff, List.forall₂_map_right_iff, List.forall₂_same]
    intro p hp
    have hvalid := (of_identifierParts h).1 p hp
    exact bind_eq_ok_iff.2 ⟨(), validateRawQuotedIdentifierPart_eq_ok_iff.2 hvalid, rfl⟩
  rw [hquoted]
  exact ⟨fun h => (Except.ok.inj h).symm, fun h => congrArg Except.ok h.symm⟩

/-- One or two valid parts, delimited, may be written where quoted parts and paths are
allowed. -/
theorem spelled_delimitPath (hvalid : ∀ p ∈ parts, ValidPart p)
    (hlength : parts.length = 1 ∨ parts.length = 2) :
    Spelled true true (delimitPath parts) parts := by
  match parts with
  | [p] =>
    have hone : delimitPath [p] = delimit p := List.intercalate_singleton
    rw [hone]
    exact .one (.delimited rfl (hvalid p (by simp)))
  | [p, q] =>
    have hpath : delimitPath [p, q] = delimit p ++ '.' :: delimit q := by
      simp [delimitPath, List.intercalate]
    rw [hpath]
    exact .path rfl (.delimited rfl (hvalid p (by simp))) (.delimited rfl (hvalid q (by simp)))
  | _ :: _ :: _ :: _ => simp at hlength

/-- **Identifiers are spliced safely.** What `_quote_identifier` makes of an identifier is read
by PostgreSQL as the path of its one or two parts, of which it keeps 63 bytes each, and as
nothing else; and the code reads the same parts from it again. A string is accepted if and
only if it may be written, and for any other a `ValueError` is raised. -/
theorem quoteIdentifier_reads (repr : Identifier → String) (allowPath allowQuoted : Bool) :
    (∀ identifier out, quoteIdentifier repr identifier allowPath allowQuoted = .ok out →
      ∃ parts, identifierParts repr identifier allowPath allowQuoted = .ok parts
        ∧ (parts.length = 1 ∨ parts.length = 2)
        ∧ lex out = some (pathTokens (parts.map truncateIdentifier))
        ∧ ((∀ p ∈ parts, byteLength p ≤ maxIdentifierBytes) →
          lex out = some (pathTokens parts))
        ∧ identifierParts repr (.text out) true true = .ok parts)
      ∧ ∀ s, (∀ parts, identifierParts repr (.text s) allowPath allowQuoted = .ok parts
          ↔ Spelled allowPath allowQuoted s parts)
        ∧ ((∀ parts, ¬ Spelled allowPath allowQuoted s parts) →
          ∃ e : ValueError, quoteIdentifier repr (.text s) allowPath allowQuoted = .error e) := by
  refine ⟨fun identifier out hout => ?_, fun s => ⟨fun parts => identifierParts_text_iff, ?_⟩⟩
  · obtain ⟨parts, hparts, rfl⟩ := quoteIdentifier_eq_ok_iff.1 hout
    obtain ⟨hvalid, hlength⟩ := of_identifierParts hparts
    have hlex := lex_delimitPath hvalid
    refine ⟨parts, hparts, hlength, hlex, fun hshort => ?_,
      identifierParts_text_iff.2 (spelled_delimitPath hvalid hlength)⟩
    have hkept : parts.map truncateIdentifier = parts :=
      (List.map_congr_left (fun p hp => truncateIdentifier_eq_self (hshort p hp))).trans
        (List.map_id parts)
    rw [hlex, hkept]
  · intro hnot
    cases hquote : quoteIdentifier repr (.text s) allowPath allowQuoted with
    | error e => exact ⟨e, rfl⟩
    | ok out =>
      obtain ⟨parts, hparts, -⟩ := quoteIdentifier_eq_ok_iff.1 hquote
      exact absurd (identifierParts_text_iff.1 hparts) (hnot parts)

/-- A column name of 64 letters, accepted as any plain name is. -/
def longName : Text := List.replicate 64 'a'

/-- **Of a longer name the lexer keeps the beginning.** -/
theorem lex_longName_ne :
    ¬ ∀ (repr : Identifier → String) (identifier : Identifier) (allowPath allowQuoted : Bool)
        (parts : List Text) (out : Text),
      identifierParts repr identifier allowPath allowQuoted = .ok parts →
      quoteIdentifier repr identifier allowPath allowQuoted = .ok out →
      lex out = some (pathTokens parts) := by
  intro h
  have hparts : identifierParts (fun _ => "") (.text longName) false false = .ok [longName] := by
    rfl
  have hlex := h _ _ _ _ _ _ hparts (quoteIdentifier_eq_ok_iff.2 ⟨_, hparts, rfl⟩)
  revert hlex
  decide +kernel

end Identifiers

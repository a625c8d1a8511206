import Mathlib.Data.List.Basic
import Mathlib.Data.List.Infix
import Mathlib.Data.List.TakeWhile
import Mathlib.Tactic.Common
import Mathlib.Tactic.IntervalCases

/-!
# The words of a protobuf schema

Of the text of a schema the scan for message names reads only part: its braces, its
semicolons, and the words, a word being an identifier together with the dots and further
identifiers that follow it without a blank. Numbers, strings, comments and every other
character are passed over.

The other side is the text as the language has it (`Lexeme`, `Spelled`): words, numbers,
strings, symbols, semicolons and braces, with blanks and comments of either kind anywhere
between them. A dotted name may be written with blanks around its dots, and then it is
several words.

Every text that spells a list of lexemes is read as the words, semicolons and braces of these
lexemes (`Spelled.tokenizeProtoSchema`), whatever its comments and strings contain. What else
is read is the letters within a number, as in `0x1F` or `1e9`.
-/

namespace ProtoTokens

/-! ## Characters -/

/-- `str.isspace`. -/
def isSpace (c : Char) : Bool :=
  let n := c.toNat
  (0x09 ≤ n && n ≤ 0x0D) || (0x1C ≤ n && n ≤ 0x20) || n = 0x85 || n = 0xA0 || n = 0x1680 ||
    (0x2000 ≤ n && n ≤ 0x200A) || n = 0x2028 || n = 0x2029 || n = 0x202F || n = 0x205F ||
    n = 0x3000

/-- `[A-Za-z_]`. -/
def isIdentifierStart (c : Char) : Bool := c.isAlpha || c = '_'

/-- `[A-Za-z0-9_.]`: what a word goes on with. -/
def isNameChar (c : Char) : Bool := c.isAlphanum || c = '_' || c = '.'

def isAscii (c : Char) : Bool := c.toNat < 128

/-- `[\w.]`. Which characters outside ASCII `\w` matches is a parameter. -/
def isIdentifierChar (unicodeWord : Char → Bool) (c : Char) : Bool :=
  if isAscii c then isNameChar c else unicodeWord c

/-! ## The scan -/

/-- A token of `tokenize_proto_schema`. -/
abbrev Token := List Char

/-- What is left of the text after the comment. -/
def skipLineComment : List Char → List Char
  | [] => []
  | c :: cs => if c = '\n' then cs else skipLineComment cs

/-- **What comes after a block comment**, which has to end. -/
def skipBlockComment : List Char → Except String (List Char)
  | [] => .error "Malformed protobuf schema: unclosed block comment."
  | c :: cs =>
    if c = '*' ∧ cs.head? = some '/' then .ok cs.tail else skipBlockComment cs

/-- What is left after the string that `quote` has opened. A backslash takes the character
after it along. -/
def skipQuotedString (quote : Char) : List Char → Except String (List Char)
  | [] => .error "Malformed protobuf schema: unclosed quoted string."
  | ['\\'] => .error "Malformed protobuf schema: unclosed quoted string."
  | '\\' :: _ :: cs => skipQuotedString quote cs
  | c :: cs => if c = quote then .ok cs else skipQuotedString quote cs

/-- A comment makes the text no longer. -/
theorem length_skipLineComment (cs : List Char) : (skipLineComment cs).length ≤ cs.length := by
  induction cs with
  | nil => simp [skipLineComment]
  | cons c cs ih =>
    rw [skipLineComment]
    split
    · simp
    · simp only [List.length_cons]
      omega

theorem length_of_skipBlockComment {cs rest : List Char} (h : skipBlockComment cs = .ok rest) :
    rest.length ≤ cs.length := by
  induction cs with
  | nil => cases h
  | cons c cs ih =>
    rw [skipBlockComment] at h
    split at h
    · cases h
      simp only [List.length_tail, List.length_cons]
      omega
    · have := ih h
      simp only [List.length_cons]
      omega

theorem length_of_skipQuotedString {quote : Char} {cs rest : List Char}
    (h : skipQuotedString quote cs = .ok rest) : rest.length ≤ cs.length := by
  induction cs using skipQuotedString.induct quote with
  | case1 => cases h
  | case2 => cases h
  | case3 c cs ih =>
    rw [skipQuotedString] at h
    have := ih h
    simp only [List.length_cons]
    omega
  | case4 cs hlone hescape =>
    rw [skipQuotedString, if_pos rfl] at h
    · cases h
      simp
    all_goals assumption
  | case5 c cs hlone hescape hc ih =>
    rw [skipQuotedString, if_neg hc] at h
    · have := ih h
      simp only [List.length_cons]
      omega
    all_goals assumption

/-- **`tokenize_proto_schema`.** The text is what the cursor has before it. -/
def tokenizeProtoSchema (unicodeWord : Char → Bool) : List Char → Except String (List Token)
  | [] => .ok []
  | c :: cs =>
    if isSpace c then tokenizeProtoSchema unicodeWord cs
    else if c = '/' ∧ cs.head? = some '/' then
      tokenizeProtoSchema unicodeWord (skipLineComment cs.tail)
    else if c = '/' ∧ cs.head? = some '*' then
      match _h : skipBlockComment cs.tail with
      | .error message => .error message
      | .ok rest => tokenizeProtoSchema unicodeWord rest
    else if c = '"' ∨ c = '\x27' then
      match _h : skipQuotedString c cs with
      | .error message => .error message
      | .ok rest => tokenizeProtoSchema unicodeWord rest
    else if c = '\x7b' ∨ c = '\x7d' ∨ c = ';' then
      (tokenizeProtoSchema unicodeWord cs).map ([c] :: ·)
    else if isIdentifierStart c then
      (tokenizeProtoSchema unicodeWord (cs.dropWhile (isIdentifierChar unicodeWord))).map
        ((c :: cs.takeWhile (isIdentifierChar unicodeWord)) :: ·)
    else tokenizeProtoSchema unicodeWord cs
termination_by text => text.length
decreasing_by
  · simp
  · have := length_skipLineComment cs.tail
    simp only [List.length_tail, List.length_cons] at *
    omega
  · have := length_of_skipBlockComment _h
    simp only [List.length_tail, List.length_cons] at *
    omega
  · have := length_of_skipQuotedString _h
    simp only [List.length_cons]
    omega
  · simp
  · have := (List.dropWhile_sublist (isIdentifierChar unicodeWord) (l := cs)).length_le
    simp only [List.length_cons]
    omega
  · simp

/-! ## Lexemes -/

/-- An identifier, with or without dots in it. -/
def isWord : List Char → Bool
  | [] => false
  | c :: cs => isIdentifierStart c && cs.all isNameChar

/-- **A word**: an identifier, or as much of a dotted name as is written without a blank. -/
structure Word where
  chars : List Char
  isWord : isWord chars = true
  deriving DecidableEq

/-- `x1F`, `e9` or nothing: the letters with which a number goes on, and what they take with
them. -/
def isNumberTail : List Char → Bool
  | [] => true
  | c :: cs =>
    (c = 'x' || c = 'X' || c = 'e' || c = 'E') &&
      cs.all (fun d => d.isDigit || ('a' ≤ d && d ≤ 'f') || ('A' ≤ d && d ≤ 'F'))

/-- **A number**: `12`, `017`, `0x1F`, `1.5`, `.5`, `1e9`, `1.5e+9`. -/
structure Number where
  /-- Digits and dots. -/
  lead : List Char
  /-- What begins with a letter. -/
  tail : List Char
  /-- A signed exponent. -/
  exponent : List Char
  lead_digits : lead.all (fun c => c.isDigit || c = '.') = true
  tail_letters : isNumberTail tail = true
  exponent_digits : (exponent.all (fun c => c.isDigit || c = '+' || c = '-')) = true
  exponent_signed : exponent.head?.all (fun c => c = '+' || c = '-') = true
  deriving DecidableEq

/-- What stands between quotes: characters, and backslashes that each take one along. -/
inductive QuotedBody (quote : Char) : List Char → Prop where
  | nil : QuotedBody quote []
  | char {c : Char} {cs : List Char} (hquote : c ≠ quote) (hescape : c ≠ '\\')
      (h : QuotedBody quote cs) : QuotedBody quote (c :: cs)
  | escape {c : Char} {cs : List Char} (h : QuotedBody quote cs) :
      QuotedBody quote ('\\' :: c :: cs)

/-- **A string literal.** -/
structure Quoted where
  quote : Char
  body : List Char
  isQuote : quote = '"' ∨ quote = '\x27'
  isBody : QuotedBody quote body

/-- The characters that stand for themselves. -/
def symbols : List Char := "()[]<>=,:-+./".toList

/-- Any other character, which is passed over. -/
structure Symbol where
  char : Char
  isSymbol : char ∈ symbols
  deriving DecidableEq

/-- What a schema is written with, its braces apart. -/
inductive Plain where
  | word (w : Word)
  | number (n : Number)
  | string (s : Quoted)
  | symbol (c : Symbol)
  | semicolon

inductive Lexeme where
  | plain (p : Plain)
  | openBrace
  | closeBrace

def Plain.text : Plain → List Char
  | .word w => w.chars
  | .number n => n.lead ++ n.tail ++ n.exponent
  | .string s => s.quote :: s.body ++ [s.quote]
  | .symbol c => [c.char]
  | .semicolon => [';']

def Lexeme.text : Lexeme → List Char
  | .plain p => p.text
  | .openBrace => ['\x7b']
  | .closeBrace => ['\x7d']

/-- What the scan sees of a lexeme. -/
def Plain.tokens : Plain → List Token
  | .word w => [w.chars]
  | .number n => if n.tail = [] then [] else [n.tail]
  | .string _ => []
  | .symbol _ => []
  | .semicolon => [[';']]

def Lexeme.tokens : Lexeme → List Token
  | .plain p => p.tokens
  | .openBrace => [['\x7b']]
  | .closeBrace => [['\x7d']]

/-! ## Texts -/

/-- Here a word or a number ends. -/
def EndsWord (text : List Char) : Prop :=
  ∀ c ∈ text.head?, isAscii c = true ∧ isNameChar c = false

/-- What may not follow a lexeme: a word goes on while it can, and a slash begins a
comment. -/
def Plain.Ends : Plain → List Char → Prop
  | .word _, text => EndsWord text
  | .number _, text => EndsWord text
  | .symbol c, text => c.char = '/' → text.head? ≠ some '/' ∧ text.head? ≠ some '*'
  | _, _ => True

def Lexeme.Ends : Lexeme → List Char → Prop
  | .plain p, text => p.Ends text
  | _, _ => True

/-- The blanks of the language. -/
def blanks : List Char := [' ', '\t', '\n', '\r', '\x0b', '\x0c']

/-- **A text that spells a list of lexemes**, with blanks and comments anywhere between
them. -/
inductive Spelled : List Lexeme → List Char → Prop where
  | nil : Spelled [] []
  | blank {c : Char} {ls : List Lexeme} {text : List Char} (hc : c ∈ blanks)
      (h : Spelled ls text) : Spelled ls (c :: text)
  | lineComment {body : List Char} {ls : List Lexeme} {text : List Char} (hbody : '\n' ∉ body)
      (h : Spelled ls text) : Spelled ls ('/' :: '/' :: (body ++ '\n' :: text))
  | lastComment {body : List Char} (hbody : '\n' ∉ body) : Spelled [] ('/' :: '/' :: body)
  | blockComment {body : List Char} {ls : List Lexeme} {text : List Char}
      (hbody : ¬['*', '/'] <:+: body) (h : Spelled ls text) :
      Spelled ls ('/' :: '*' :: (body ++ '*' :: '/' :: text))
  | lexeme {l : Lexeme} {ls : List Lexeme} {text : List Char} (hl : l.Ends text)
      (h : Spelled ls text) : Spelled (l :: ls) (l.text ++ text)

/-- The lexemes with a blank after each. -/
def write (ls : List Lexeme) : List Char := ls.flatMap (fun l => l.text ++ [' '])

/-- **Before a blank everything ends.** -/
theorem Lexeme.ends_blank (l : Lexeme) (text : List Char) : l.Ends (' ' :: text) := by
  have hword : EndsWord (' ' :: text) := by
    intro c hc
    obtain rfl : ' ' = c := by simpa using hc
    decide
  match l with
  | .plain (.word _) => exact hword
  | .plain (.number _) => exact hword
  | .plain (.string _) => exact True.intro
  | .plain (.symbol _) => exact fun _ => by simp
  | .plain .semicolon => exact True.intro
  | .openBrace => exact True.intro
  | .closeBrace => exact True.intro

/-- **Every list of lexemes has a text.** -/
theorem spelled_write (ls : List Lexeme) : Spelled ls (write ls) := by
  induction ls with
  | nil => exact .nil
  | cons l ls ih =>
    show Spelled (l :: ls) (l.text ++ [' '] ++ write ls)
    rw [List.append_assoc]
    exact .lexeme (l.ends_blank _) (.blank (by decide) ih)

/-! ## What is read of a text -/

/-- The capital letters by their numbers. -/
theorem isUpper_iff {c : Char} : c.isUpper = true ↔ 65 ≤ c.toNat ∧ c.toNat ≤ 90 := by
  show decide ('A'.val ≤ c.val ∧ c.val ≤ 'Z'.val) = true ↔ _
  rw [decide_eq_true_eq, UInt32.le_iff_toNat_le, UInt32.le_iff_toNat_le]
  rfl

theorem isLower_iff {c : Char} : c.isLower = true ↔ 97 ≤ c.toNat ∧ c.toNat ≤ 122 := by
  show (decide ('a'.val ≤ c.val) && decide (c.val ≤ 'z'.val)) = true ↔ _
  rw [Bool.and_eq_true, decide_eq_true_eq, decide_eq_true_eq, UInt32.le_iff_toNat_le,
    UInt32.le_iff_toNat_le]
  rfl

theorem isDigit_iff {c : Char} : c.isDigit = true ↔ 48 ≤ c.toNat ∧ c.toNat ≤ 57 := by
  show (decide ('0'.val ≤ c.val) && decide (c.val ≤ '9'.val)) = true ↔ _
  rw [Bool.and_eq_true, decide_eq_true_eq, decide_eq_true_eq, UInt32.le_iff_toNat_le,
    UInt32.le_iff_toNat_le]
  rfl

theorem isAlpha_iff {c : Char} :
    c.isAlpha = true ↔ (65 ≤ c.toNat ∧ c.toNat ≤ 90) ∨ (97 ≤ c.toNat ∧ c.toNat ≤ 122) := by
  show (c.isUpper || c.isLower) = true ↔ _
  rw [Bool.or_eq_true, isUpper_iff, isLower_iff]

theorem isIdentifierStart_toNat {c : Char} (h : isIdentifierStart c = true) :
    (65 ≤ c.toNat ∧ c.toNat ≤ 90) ∨ (97 ≤ c.toNat ∧ c.toNat ≤ 122) ∨ c.toNat = 95 := by
  rw [isIdentifierStart, Bool.or_eq_true, decide_eq_true_eq, isAlpha_iff] at h
  rcases h with h | rfl
  · exact h.imp_right .inl
  · decide

/-- What it goes on with, dots included. -/
theorem isNameChar_iff {c : Char} :
    isNameChar c = true ↔ ((c.isAlpha = true ∨ c.isDigit = true) ∨ c = '_') ∨ c = '.' := by
  show (((c.isAlpha || c.isDigit) || _) || _) = true ↔ _
  simp only [Bool.or_eq_true, decide_eq_true_eq]

theorem isAscii_of_isNameChar {c : Char} (h : isNameChar c = true) : isAscii c = true := by
  rw [isNameChar_iff, isAlpha_iff, isDigit_iff] at h
  rcases h with (h | rfl) | rfl
  · rw [isAscii, decide_eq_true_eq]
    omega
  all_goals decide

theorem isNameChar_of_hex {c : Char}
    (h : (c.isDigit || ('a' ≤ c && c ≤ 'f') || ('A' ≤ c && c ≤ 'F')) = true) :
    isNameChar c = true := by
  simp only [Bool.or_eq_true, Bool.and_eq_true, decide_eq_true_eq] at h
  rw [isNameChar_iff, isAlpha_iff]
  rcases h with (h | ⟨hlow, hhigh⟩) | ⟨hlow, hhigh⟩
  · exact .inl (.inl (.inr h))
  · have hlow : 97 ≤ c.toNat := hlow
    have hhigh : c.toNat ≤ 102 := hhigh
    exact .inl (.inl (.inl (by omega)))
  · have hlow : 65 ≤ c.toNat := hlow
    have hhigh : c.toNat ≤ 70 := hhigh
    exact .inl (.inl (.inl (by omega)))

/-- The characters at which the scan stops for nothing. -/
def isPassed (c : Char) : Bool :=
  !isSpace c && c != '/' && c != '"' && c != '\x27' && c != '\x7b' && c != '\x7d' && c != ';' &&
    !isIdentifierStart c

/-- A digit at the start of a token is passed over. -/
theorem isPassed_of_isDigit {c : Char} (h : c.isDigit = true) : isPassed c = true := by
  rw [isDigit_iff] at h
  have hc : c = Char.ofNat c.toNat := (Char.ofNat_toNat c).symm
  have hlow : 48 ≤ c.toNat := h.1
  have hhigh : c.toNat ≤ 57 := h.2
  rw [hc]
  generalize c.toNat = n at hlow hhigh
  interval_cases n <;> decide

section Reading

variable (u : Char → Bool)

theorem tokenizeProtoSchema_nil : tokenizeProtoSchema u [] = .ok [] := by
  rw [tokenizeProtoSchema.eq_def]

theorem tokenizeProtoSchema_space {c : Char} (cs : List Char) (hc : isSpace c = true) :
    tokenizeProtoSchema u (c :: cs) = tokenizeProtoSchema u cs := by
  rw [tokenizeProtoSchema.eq_def]
  dsimp only
  rw [if_pos hc]

theorem tokenizeProtoSchema_passed {c : Char} (cs : List Char) (hc : isPassed c = true) :
    tokenizeProtoSchema u (c :: cs) = tokenizeProtoSchema u cs := by
  simp only [isPassed, Bool.and_eq_true, Bool.not_eq_true', bne_iff_ne, ne_eq] at hc
  obtain ⟨⟨⟨⟨⟨⟨⟨hspace, hslash⟩, hquote⟩, hsingle⟩, hopen⟩, hclose⟩, hsemi⟩, hstart⟩ := hc
  rw [tokenizeProtoSchema.eq_def]
  dsimp only
  simp [hspace, hslash, hquote, hsingle, hopen, hclose, hsemi, hstart]

theorem tokenizeProtoSchema_passed_append {passed : List Char} (text : List Char)
    (h : passed.all isPassed = true) :
    tokenizeProtoSchema u (passed ++ text) = tokenizeProtoSchema u text := by
  induction passed with
  | nil => rfl
  | cons c cs ih =>
    rw [List.all_cons, Bool.and_eq_true] at h
    rw [List.cons_append, tokenizeProtoSchema_passed u _ h.1, ih h.2]

/-- A word is read to its end. -/
theorem tokenizeProtoSchema_word {w text : List Char} (hw : isWord w = true)
    (htext : EndsWord text) :
    tokenizeProtoSchema u (w ++ text) = (tokenizeProtoSchema u text).map (w :: ·) := by
  match w, hw with
  | c :: cs, hw =>
    rw [isWord, Bool.and_eq_true] at hw
    obtain ⟨hstart, hrest⟩ := hw
    have hbounds := isIdentifierStart_toNat hstart
    have hspace : isSpace c = false := by
      simp only [isSpace, Bool.or_eq_false_iff, Bool.and_eq_false_iff, decide_eq_false_iff_not]
      omega
    have hne : ∀ d, isIdentifierStart d = false → c ≠ d := by
      rintro d hd rfl
      rw [hd] at hstart
      cases hstart
    have hall : ∀ d ∈ cs, isIdentifierChar u d = true := by
      intro d hd
      have hname := List.all_eq_true.mp hrest d hd
      rw [isIdentifierChar, if_pos (isAscii_of_isNameChar hname)]
      exact hname
    have hend : text.takeWhile (isIdentifierChar u) = []
        ∧ text.dropWhile (isIdentifierChar u) = text := by
      match text, htext with
      | [], _ => exact ⟨rfl, rfl⟩
      | d :: ds, htext =>
        obtain ⟨hascii, hd⟩ := htext d rfl
        have hstop : ¬isIdentifierChar u d = true := by
          rw [isIdentifierChar, if_pos hascii, hd]
          decide
        exact ⟨List.takeWhile_cons_of_neg hstop, List.dropWhile_cons_of_neg hstop⟩
    rw [List.cons_append, tokenizeProtoSchema.eq_def]
    dsimp only
    rw [if_neg (by simp [hspace]),
      if_neg (fun h => hne '/' (by decide) h.1), if_neg (fun h => hne '/' (by decide) h.1),
      if_neg (by rintro (h | h) <;> exact hne _ (by decide) h),
      if_neg (by rintro (h | h | h) <;> exact hne _ (by decide) h), if_pos hstart,
      List.takeWhile_append_of_pos hall, List.dropWhile_append_of_pos hall, hend.1, hend.2,
      List.append_nil]

/-- A comment without a line break goes on to the end. -/
theorem skipLineComment_of_notMem {body : List Char} (h : '\n' ∉ body) :
    skipLineComment body = [] := by
  induction body with
  | nil => rfl
  | cons c cs ih =>
    rw [List.mem_cons, not_or] at h
    rw [skipLineComment, if_neg (Ne.symm h.1), ih h.2]

theorem skipLineComment_append {body : List Char} (text : List Char) (h : '\n' ∉ body) :
    skipLineComment (body ++ '\n' :: text) = text := by
  induction body with
  | nil => rfl
  | cons c cs ih =>
    rw [List.mem_cons, not_or] at h
    rw [List.cons_append, skipLineComment, if_neg (Ne.symm h.1), ih h.2]

/-- **A block comment** ends where it is closed for the first time. -/
theorem skipBlockComment_append {body : List Char} (text : List Char)
    (h : ¬['*', '/'] <:+: body) : skipBlockComment (body ++ '*' :: '/' :: text) = .ok text := by
  induction body with
  | nil => rfl
  | cons c cs ih =>
    have hcs : ¬['*', '/'] <:+: cs := fun hin => h (hin.trans (List.suffix_cons c cs).isInfix)
    rw [List.cons_append, skipBlockComment, if_neg, ih hcs]
    rintro ⟨rfl, hhead⟩
    match cs, hhead with
    | d :: ds, hhead =>
      obtain rfl : d = '/' := by simpa using hhead
      exact h ⟨[], ds, rfl⟩

/-- **A text in quotes** ends at its quote. -/
theorem skipQuotedString_append {quote : Char} {body : List Char} (text : List Char)
    (hquote : quote = '"' ∨ quote = '\x27') (h : QuotedBody quote body) :
    skipQuotedString quote (body ++ quote :: text) = .ok text := by
  have hescape : quote ≠ '\\' := by rcases hquote with rfl | rfl <;> decide
  induction h with
  | nil =>
    rw [List.nil_append, skipQuotedString, if_pos rfl]
    all_goals simp [hescape]
  | char hc hback _ ih =>
    rw [List.cons_append, skipQuotedString, if_neg hc, ih]
    all_goals simp [hback]
  | escape _ ih => rw [List.cons_append, List.cons_append, skipQuotedString, ih]

/-- **A number** gives the tokens that its letters make. -/
theorem tokenizeProtoSchema_number (n : Number) {text : List Char} (htext : EndsWord text) :
    tokenizeProtoSchema u (n.lead ++ n.tail ++ n.exponent ++ text)
      = (tokenizeProtoSchema u text).map ((Plain.number n).tokens ++ ·) := by
  have hpassed : ∀ cs : List Char, (cs.all (fun c => c.isDigit || c = '.' || c = '+' || c = '-'))
      → cs.all isPassed = true := by
    intro cs hcs
    refine List.all_eq_true.mpr (fun c hc => ?_)
    have h := List.all_eq_true.mp hcs c hc
    simp only [Bool.or_eq_true, decide_eq_true_eq] at h
    rcases h with ((h | rfl) | rfl) | rfl
    · exact isPassed_of_isDigit h
    all_goals decide
  have hlead : n.lead.all isPassed = true := hpassed _ (List.all_eq_true.mpr (fun c hc => by
    have h := List.all_eq_true.mp n.lead_digits c hc
    simp only [Bool.or_eq_true, decide_eq_true_eq] at h ⊢
    tauto))
  have hexponent : n.exponent.all isPassed = true :=
    hpassed _ (List.all_eq_true.mpr (fun c hc => by
      have h := List.all_eq_true.mp n.exponent_digits c hc
      simp only [Bool.or_eq_true, decide_eq_true_eq] at h ⊢
      tauto))
  rw [List.append_assoc, List.append_assoc, tokenizeProtoSchema_passed_append u _ hlead]
  by_cases htail : n.tail = []
  · rw [htail, List.nil_append, tokenizeProtoSchema_passed_append u _ hexponent, Plain.tokens,
      if_pos htail]
    cases tokenizeProtoSchema u text <;> rfl
  · have hword : isWord n.tail = true := by
      have hletters := n.tail_letters
      match hcs : n.tail, htail with
      | c :: cs, _ =>
        rw [hcs, isNumberTail, Bool.and_eq_true] at hletters
        obtain ⟨hc, hall⟩ := hletters
        rw [isWord, Bool.and_eq_true]
        refine ⟨?_, List.all_eq_true.mpr (fun d hd => ?_)⟩
        · simp only [Bool.or_eq_true, decide_eq_true_eq] at hc
          rcases hc with ((rfl | rfl) | rfl) | rfl <;> decide
        · have h := List.all_eq_true.mp hall d hd
          exact isNameChar_of_hex h
    have hend : EndsWord (n.exponent ++ text) := by
      match hcs : n.exponent with
      | [] => exact htext
      | c :: cs =>
        intro d hd
        obtain rfl : c = d := by simpa using hd
        have hsigned := n.exponent_signed
        rw [hcs] at hsigned
        simp only [List.head?_cons, Option.all_some, Bool.or_eq_true, decide_eq_true_eq]
          at hsigned
        rcases hsigned with rfl | rfl <;> decide
    rw [tokenizeProtoSchema_word u hword hend, tokenizeProtoSchema_passed_append u _ hexponent,
      Plain.tokens, if_neg htail]
    rfl

theorem tokenizeProtoSchema_string (s : Quoted) (text : List Char) :
    tokenizeProtoSchema u (s.quote :: s.body ++ [s.quote] ++ text)
      = tokenizeProtoSchema u text := by
  have hskip := skipQuotedString_append text s.isQuote s.isBody
  have hspace : isSpace s.quote = false := by rcases s.isQuote with h | h <;> rw [h] <;> decide
  have hslash : s.quote ≠ '/' := by rcases s.isQuote with h | h <;> rw [h] <;> decide
  rw [List.append_assoc, List.cons_append, List.singleton_append, tokenizeProtoSchema.eq_def]
  dsimp only
  rw [if_neg (by simp [hspace]), if_neg (fun h => hslash h.1), if_neg (fun h => hslash h.1),
    if_pos s.isQuote]
  split
  · next message herror =>
    rw [hskip] at herror
    cases herror
  · next rest hrest =>
    rw [hskip] at hrest
    cases hrest
    rfl

theorem tokenizeProtoSchema_symbol (c : Symbol) {text : List Char}
    (htext : (Plain.symbol c).Ends text) :
    tokenizeProtoSchema u (c.char :: text) = tokenizeProtoSchema u text := by
  by_cases hslash : c.char = '/'
  · obtain ⟨hline, hblock⟩ := htext hslash
    rw [hslash, tokenizeProtoSchema.eq_def]
    dsimp only
    rw [if_neg (by decide), if_neg (fun h => hline h.2),
      if_neg (fun h => hblock h.2), if_neg (by decide), if_neg (by decide), if_neg (by decide)]
  · have hpassed : symbols.all (fun d => d = '/' || isPassed d) = true := by decide
    have hchar := List.all_eq_true.mp hpassed c.char c.isSymbol
    rw [Bool.or_eq_true, decide_eq_true_eq] at hchar
    exact tokenizeProtoSchema_passed u _ (hchar.resolve_left hslash)

/-- **A brace and a semicolon** are tokens. -/
theorem tokenizeProtoSchema_mark {c : Char} (text : List Char)
    (hc : c = '\x7b' ∨ c = '\x7d' ∨ c = ';') :
    tokenizeProtoSchema u (c :: text) = (tokenizeProtoSchema u text).map ([c] :: ·) := by
  have hspace : isSpace c = false := by rcases hc with rfl | rfl | rfl <;> decide
  have hslash : c ≠ '/' := by rcases hc with rfl | rfl | rfl <;> decide
  have hquote : ¬(c = '"' ∨ c = '\x27') := by rcases hc with rfl | rfl | rfl <;> decide
  rw [tokenizeProtoSchema.eq_def]
  dsimp only
  rw [if_neg (by simp [hspace]), if_neg (fun h => hslash h.1),
    if_neg (fun h => hslash h.1), if_neg hquote, if_pos hc]

theorem map_nil_append (tokens : Except String (List Token)) :
    tokens.map (([] : List Token) ++ ·) = tokens := by
  cases tokens <;> rfl

/-- **What is read of one lexeme**, if it ends where it should. -/
theorem tokenizeProtoSchema_lexeme {l : Lexeme} {text : List Char} (hl : l.Ends text) :
    tokenizeProtoSchema u (l.text ++ text)
      = (tokenizeProtoSchema u text).map (l.tokens ++ ·) := by
  match l, hl with
  | .plain (.word w), hl => exact tokenizeProtoSchema_word u w.isWord hl
  | .plain (.number n), hl => exact tokenizeProtoSchema_number u n hl
  | .plain (.string s), _ =>
    exact (tokenizeProtoSchema_string u s text).trans (map_nil_append _).symm
  | .plain (.symbol c), hl =>
    exact (tokenizeProtoSchema_symbol u c hl).trans (map_nil_append _).symm
  | .plain .semicolon, _ => exact tokenizeProtoSchema_mark u text (by decide)
  | .openBrace, _ => exact tokenizeProtoSchema_mark u text (by decide)
  | .closeBrace, _ => exact tokenizeProtoSchema_mark u text (by decide)

/-- **A text is read as the words, semicolons and braces of what it spells.** -/
theorem Spelled.tokenizeProtoSchema {ls : List Lexeme} {text : List Char}
    (h : Spelled ls text) :
    ProtoTokens.tokenizeProtoSchema u text = .ok (ls.flatMap Lexeme.tokens) := by
  induction h with
  | nil => exact tokenizeProtoSchema_nil u
  | blank hc _ ih =>
    have hspace : blanks.all isSpace = true := by decide
    rw [tokenizeProtoSchema_space u _ (List.all_eq_true.mp hspace _ hc), ih]
  | lineComment hbody _ ih =>
    rw [ProtoTokens.tokenizeProtoSchema.eq_def]
    dsimp only
    rw [if_neg (by decide), if_pos ⟨rfl, rfl⟩, List.tail_cons,
      skipLineComment_append _ hbody, ih]
  | lastComment hbody =>
    rw [ProtoTokens.tokenizeProtoSchema.eq_def]
    dsimp only
    rw [if_neg (by decide), if_pos ⟨rfl, rfl⟩, List.tail_cons,
      skipLineComment_of_notMem hbody, tokenizeProtoSchema_nil]
    rfl
  | @blockComment body ls text hbody _ ih =>
    have hskip := skipBlockComment_append text hbody
    rw [ProtoTokens.tokenizeProtoSchema.eq_def]
    dsimp only
    rw [if_neg (by decide), if_neg (by simp),
      if_pos ⟨rfl, rfl⟩]
    split
    · next message herror =>
      rw [List.tail_cons, hskip] at herror
      cases herror
    · next rest hrest =>
      rw [List.tail_cons, hskip] at hrest
      cases hrest
      exact ih
  | lexeme hl _ ih =>
    rw [tokenizeProtoSchema_lexeme u hl, ih]
    rfl

end Reading

end ProtoTokens

import AgoraPlugins.Postgres.DsnPattern

/-!
# Keyword DSNs

A DSN in keyword form is a list of settings, `host=db password='a b'`. A value stands in quotes or
goes up to a blank, and a backslash in it is for the character after it.

The pattern that takes the passwords out knows quotes and blanks, but no backslashes, and looks for
its keyword in the values of the other settings as well. Where it takes the values of passwords to
their ends, and goes beyond the end of no other setting (`KeywordDsn.Aligned`), DSNs that differ
only in passwords become one text. Where it takes nothing else (`KeywordDsn.Handled`), DSNs that set
anything else differently do not.
-/

open Url

namespace Dsn

/-! ## Settings -/

/-- **`isspace`** in C. -/
def isBlank (c : Char) : Bool :=
  [' ', '\t', '\n', '\r', Char.ofNat 11, Char.ofNat 12].contains c

def isKeywordChar (c : Char) : Bool := c.isLower || c.isDigit || c = '_'

/-- A character of a value, as it is or after a backslash. -/
inductive Item where
  | plain (c : Char)
  | escaped (c : Char)
  deriving DecidableEq

def Item.char : Item → Char
  | .plain c => c
  | .escaped c => c

/-- A backslash before it is no part of it. -/
def Item.text : Item → List Char
  | .plain c => [c]
  | .escaped c => ['\\', c]

/-- What stands in a value without quotes. -/
def Item.isBare : Item → Bool
  | .plain c => !isBlank c && c ≠ '\\'
  | .escaped _ => true

/-- What stands in a value in quotes. -/
def Item.isQuoted : Item → Bool
  | .plain c => c ≠ '\x27' && c ≠ '\\'
  | .escaped _ => true

/-- **A value**, without quotes or in them. Without quotes it may be empty, or have a backslash
after it that is for nothing. -/
inductive Value where
  | bare (items : List Item) (dangling : Bool) (isBare : items.all Item.isBare = true)
    (noQuote : items.head? ≠ some (.plain '\x27'))
  | quoted (items : List Item) (isQuoted : items.all Item.isQuoted = true)

/-- **A value as it is written**, in quotes or without. -/
def Value.text : Value → List Char
  | .bare items dangling _ _ => items.flatMap Item.text ++ if dangling then ['\\'] else []
  | .quoted items _ => '\x27' :: (items.flatMap Item.text ++ ['\x27'])

/-- What a value is for the server. -/
def Value.chars : Value → List Char
  | .bare items _ _ _ => items.map Item.char
  | .quoted items _ => items.map Item.char

/-- Values that only the end of the text can end. -/
def Value.EndsText : Value → Prop
  | .bare items dangling _ _ => items = [] ∨ dangling = true
  | .quoted _ _ => False

/-- **A setting**, with the blanks around its equals sign. -/
structure Setting where
  keyword : Spelling isKeywordChar
  ne_nil : keyword.chars ≠ []
  before : Spelling isBlank
  after : Spelling isBlank
  value : Value

namespace Setting

variable (s : Setting)

/-- This is the setting of the password. -/
def IsPassword : Prop := s.keyword.chars = ['p', 'a', 's', 's', 'w', 'o', 'r', 'd']

instance : Decidable s.IsPassword := decEq s.keyword.chars ['p', 'a', 's', 's', 'w', 'o', 'r', 'd']

/-- A setting up to its value. -/
def head : List Char := s.keyword.chars ++ (s.before.chars ++ '=' :: s.after.chars)

/-- **A setting as it is written.** -/
def text : List Char := s.head ++ s.value.text

def withValue (value : Value) : Setting := { s with value }

/-- A setting without a password. -/
def masked : List Char := s.head ++ if s.IsPassword then ['*', '*', '*'] else s.value.text

end Setting

/-- One setting, with one password or another. -/
def SameSetting (s t : Setting × Spelling isBlank) : Prop :=
  s.2 = t.2 ∧ (s.1 = t.1 ∨ s.1.IsPassword ∧ ∃ value, t.1 = s.1.withValue value)

/-- Texts and the blanks after each, after some blanks. -/
def spelled : List Char → List (List Char × Spelling isBlank) → List Char
  | gap, [] => gap
  | gap, (t, after) :: parts => gap ++ (t ++ spelled after.chars parts)

/-- The texts of settings. -/
def parts (f : Setting → List Char) (settings : List (Setting × Spelling isBlank)) :
    List (List Char × Spelling isBlank) := settings.map (fun s => (f s.1, s.2))

/-- There are blanks before each setting, and nothing is after a value that ends the text. -/
def Separated : List Char → List (Setting × Spelling isBlank) → Prop
  | _, [] => True
  | gap, (s, after) :: settings =>
    gap ≠ [] ∧ (s.value.EndsText → after.chars = [] ∧ settings = [])
      ∧ Separated after.chars settings

/-- **What the pattern leaves of settings**, if it takes the values of passwords to their ends and
goes beyond the end of no other setting. -/
def LeavesFrom :
    List (Setting × Spelling isBlank) → List (List Char × Spelling isBlank) → Prop
  | [], left => left = []
  | (s, after) :: settings, left =>
    ∃ out more, left = (out, after) :: more
      ∧ (if s.IsPassword then
          matchSetting (s.text ++ spelled after.chars (parts Setting.text settings))
              = some (s.head, spelled after.chars (parts Setting.text settings))
            ∧ out = s.masked
        else Passes (spelled after.chars (parts Setting.text settings)) s.text out)
      ∧ LeavesFrom settings more

end Dsn

open Dsn

/-- **A DSN in keyword form.** Before the first setting there may be no blank. -/
structure KeywordDsn where
  lead : Spelling isBlank
  settings : List (Setting × Spelling isBlank)
  separated : Separated (' ' :: lead.chars) settings

namespace KeywordDsn

variable (d e : KeywordDsn)

/-- **The text of a DSN.** -/
def text : List Char := spelled d.lead.chars (parts Setting.text d.settings)

/-- The DSN without passwords. -/
def masked : List Char := spelled d.lead.chars (parts Setting.masked d.settings)

/-- The pattern takes the value of each password to its end, and goes beyond the end of no other
setting. -/
def Aligned : Prop := ∃ left, LeavesFrom d.settings left

/-- **The pattern takes the values of passwords**, and leaves the other settings as they are. -/
def Handled : Prop := LeavesFrom d.settings (parts Setting.masked d.settings)

/-- **What a DSN sets but for passwords**: among other things, the hosts, the ports, the database
and the user. -/
def location : List (List Char × List Char) :=
  (d.settings.filter (fun s => ¬ s.1.IsPassword)).map
    (fun s => (s.1.keyword.chars, s.1.value.chars))

/-- **Two DSNs differ only in passwords.** -/
def Differs : Prop := d.lead = e.lead ∧ List.Forall₂ SameSetting d.settings e.settings

end KeywordDsn

/-! ## What the pattern does -/

namespace Dsn

/-- A blank is white space for Python as well. -/
theorem isWhitespace_of_isBlank {c : Char} (h : isBlank c = true) : isWhitespace c = true := by
  have hall : [' ', '\t', '\n', '\r', Char.ofNat 11, Char.ofNat 12].all isWhitespace = true := by
    decide
  exact List.all_eq_true.1 hall c (List.contains_iff_mem.1 h)

/-- It is none of the printed characters. -/
theorem toNat_of_isBlank {c : Char} (h : isBlank c = true) : c.toNat ≤ 32 := by
  have hall : [' ', '\t', '\n', '\r', Char.ofNat 11, Char.ofNat 12].all
      (fun c => c.toNat ≤ 32) = true := by decide
  simpa using List.all_eq_true.1 hall c (List.contains_iff_mem.1 h)

/-- Where the characters of keywords stand. -/
theorem range_of_isKeywordChar {c : Char} (h : isKeywordChar c = true) :
    48 ≤ c.toNat ∧ c.toNat < 123 ∧ c.toNat ≠ 58 ∧ c.toNat ≠ 61 ∧ c.isUpper = false := by
  simp only [isKeywordChar, Bool.or_eq_true, Url.isLower_iff, Url.isDigit_iff,
    decide_eq_true_eq] at h
  rw [← Bool.not_eq_true, Url.isUpper_iff]
  rcases h with h | rfl
  · omega
  · decide

theorem not_isWhitespace_of_isKeywordChar {c : Char} (h : isKeywordChar c = true) :
    isWhitespace c = false := by
  have hrange := range_of_isKeywordChar h
  rw [← Bool.not_eq_true]
  simp only [isWhitespace, Bool.or_eq_true, Bool.and_eq_true, decide_eq_true_eq]
  omega

theorem not_isBlank_of_isKeywordChar {c : Char} (h : isKeywordChar c = true) :
    isBlank c = false := by
  rw [← Bool.not_eq_true]
  intro hblank
  have hspace := isWhitespace_of_isBlank hblank
  rw [not_isWhitespace_of_isKeywordChar h] at hspace
  exact Bool.false_ne_true hspace

theorem not_isKeywordChar_of_isBlank {c : Char} (h : isBlank c = true) :
    isKeywordChar c = false := by
  rw [← Bool.not_eq_true]
  intro hword
  rw [not_isBlank_of_isKeywordChar hword] at h
  exact Bool.false_ne_true h

/-- Of the characters of keywords, a letter of the pattern is only itself. -/
theorem eq_of_sameLetter {letter c : Char} (hc : isKeywordChar c = true)
    (h : sameLetter letter c = true) : c = letter := by
  have hrange := range_of_isKeywordChar hc
  have hlower : c.toLower = c := by
    by_contra hne
    have hupper := (isLower_of_toLower_ne hne).2
    rw [hrange.2.2.2.2] at hupper
    exact Bool.false_ne_true hupper
  simp only [sameLetter, hlower, Bool.or_eq_true, Bool.and_eq_true, decide_eq_true_eq] at h
  exact h.resolve_right (fun hlong => by omega)

/-- **A word of the pattern** at the start of a keyword is a prefix of it. -/
theorem takeWord_keyword :
    ∀ {word k x w v : List Char}, k.all isKeywordChar = true →
      (∀ c ∈ x.head?, ∀ letter ∈ word, sameLetter letter c = false) →
      takeWord word (k ++ x) = some (w, v) → ∃ k', k = word ++ k' ∧ v = k' ++ x
  | [], k, x, w, v, _, _, h => by
    obtain ⟨rfl, rfl⟩ := Prod.mk.inj (Option.some.inj h)
    exact ⟨k, rfl, rfl⟩
  | letter :: word, [], x, w, v, _, hx, h => by
    cases x with
    | nil => cases h
    | cons c x =>
      rw [List.nil_append, takeWord, hx c rfl letter List.mem_cons_self,
        if_neg Bool.false_ne_true] at h
      cases h
  | letter :: word, c :: k, x, w, v, hk, hx, h => by
    rw [List.all_cons, Bool.and_eq_true] at hk
    rw [List.cons_append, takeWord] at h
    split_ifs at h with hc
    obtain ⟨⟨w', v'⟩, hword, hrest⟩ := Option.map_eq_some_iff.1 h
    obtain ⟨rfl, rfl⟩ := Prod.mk.inj hrest
    obtain ⟨k', rfl, rfl⟩ := takeWord_keyword hk.2
      (fun d hd letter hletter => hx d hd letter (List.mem_cons_of_mem _ hletter)) hword
    exact ⟨k', by rw [eq_of_sameLetter hk.1 hc]; rfl, rfl⟩

/-- What follows blanks, or the first of them. -/
theorem head_blanks {p : Char → Prop} (hp : ∀ c, isBlank c = true → p c)
    (blanks : Spelling isBlank) {cs : List Char} (hcs : ∀ c ∈ cs.head?, p c) :
    ∀ c ∈ (blanks.chars ++ cs).head?, p c := by
  intro c hc
  cases hblanks : blanks.chars with
  | nil =>
    rw [hblanks] at hc
    exact hcs c hc
  | cons d ds =>
    rw [hblanks] at hc
    obtain rfl : d = c := Option.some.inj hc
    refine hp d (List.all_eq_true.1 blanks.spelled d ?_)
    rw [hblanks]
    exact List.mem_cons_self

/-- No letter of the pattern is a blank or an equals sign. -/
theorem not_sameLetter {c : Char} (h : isBlank c = true ∨ c = '=') :
    ∀ letter ∈ ['p', 'a', 's', 's', 'w', 'o', 'r', 'd'], sameLetter letter c = false := by
  have hall : [' ', '\t', '\n', '\r', Char.ofNat 11, Char.ofNat 12, '='].all (fun c =>
      ['p', 'a', 's', 's', 'w', 'o', 'r', 'd'].all (fun letter => !sameLetter letter c))
      = true := by decide
  have hmem : c ∈ [' ', '\t', '\n', '\r', Char.ofNat 11, Char.ofNat 12, '='] := by
    rcases h with h | rfl
    · have hblank := List.contains_iff_mem.1 h
      simp only [List.mem_cons, List.not_mem_nil, or_false] at hblank ⊢
      tauto
    · simp
  intro letter hletter
  simpa using List.all_eq_true.1 (List.all_eq_true.1 hall c hmem) letter hletter

/-- A setting, part by part. -/
theorem Setting.text_append (s : Setting) (rest : List Char) : s.text ++ rest
    = s.keyword.chars ++ (s.before.chars ++ '=' :: (s.after.chars ++ (s.value.text ++ rest))) := by
  simp [text, head]

/-- **A match at the start of a setting** is of a password. -/
theorem matchSetting_of_not_isPassword {s : Setting} (h : ¬ s.IsPassword) (rest : List Char) :
    matchSetting (s.text ++ rest) = none := by
  by_contra hsome
  obtain ⟨⟨kept, r⟩, hmatch⟩ := Option.ne_none_iff_exists'.1 hsome
  obtain ⟨⟨_, v⟩, hkeyword, _⟩ := Option.bind_eq_some_iff.1 hmatch
  obtain ⟨⟨w, x⟩, hword, htail⟩ := Option.bind_eq_some_iff.1 hkeyword
  rw [s.text_append] at hword
  obtain ⟨k', hk', rfl⟩ := takeWord_keyword s.keyword.spelled
    (head_blanks (fun c hc => not_sameLetter (.inl hc)) s.before (by
      rintro _ ⟨⟩
      exact not_sameLetter (.inr rfl))) hword
  cases k' with
  | nil => exact h (by rw [Setting.IsPassword, hk', List.append_nil])
  | cons c k' =>
    have hc : isKeywordChar c = true := by
      refine List.all_eq_true.1 s.keyword.spelled c ?_
      rw [hk']
      exact List.mem_append_right _ List.mem_cons_self
    have hequals : c ≠ '=' := by
      rintro rfl
      exact absurd hc (by decide)
    dsimp only at htail
    rw [List.cons_append, List.dropWhile_cons_of_neg (by
      rw [not_isWhitespace_of_isKeywordChar hc]
      exact Bool.false_ne_true)] at htail
    dsimp only at htail
    rw [if_neg hequals] at htail
    cases htail

/-- No match begins with a blank. -/
theorem matchSetting_of_isBlank {c : Char} (h : isBlank c = true) (cs : List Char) :
    matchSetting (c :: cs) = none := by
  unfold matchSetting takeKeyword
  rw [takeWord, not_sameLetter (.inl h) 'p' List.mem_cons_self, if_neg Bool.false_ne_true]
  rfl

/-- Between blanks there is no match. -/
theorem passes_blanks :
    ∀ {cs rest : List Char}, cs.all isBlank = true →
      (∀ c ∈ rest.head?, isBlank c = true) → Passes rest cs cs
  | [], _, _, _ => .nil
  | c :: cs, rest, h, hrest => by
    rw [List.all_cons, Bool.and_eq_true] at h
    refine .skip (fun _ => ?_) (passes_blanks h.2 hrest)
    cases cs with
    | nil =>
      cases rest with
      | nil => rfl
      | cons d rest => exact matchSetting_of_isBlank (hrest d rfl) rest
    | cons d cs =>
      rw [List.all_cons, Bool.and_eq_true] at h
      exact matchSetting_of_isBlank h.2.1 _

theorem length_text_pos (s : Setting) : 0 < s.text.length := by
  obtain ⟨c, cs, hcs⟩ := List.exists_cons_of_ne_nil s.ne_nil
  simp [Setting.text, Setting.head, hcs]

/-- **Settings after a blank.** By induction on the settings; the gap before each ends with the
blank that a match begins with. -/
theorem subFrom_spelled :
    ∀ {settings : List (Setting × Spelling isBlank)} {gap : Spelling isBlank}
      {left : List (List Char × Spelling isBlank)},
      Separated gap.chars settings → LeavesFrom settings left →
      ∀ fuel, (spelled gap.chars (parts Setting.text settings)).length < fuel →
      subFrom fuel false (spelled gap.chars (parts Setting.text settings))
        = spelled gap.chars left
  | [], gap, left, _, h, fuel, hfuel => by
    obtain rfl : left = [] := h
    have hempty : ∀ fuel, ([] : List Char).length < fuel → subFrom fuel false [] = [] := by
      intro fuel _
      cases fuel <;> rfl
    have hgap := subFrom_of_passes hempty (passes_blanks gap.spelled (by simp)) fuel
    rw [List.append_nil] at hgap
    exact hgap hfuel
  | (s, after) :: settings, gap, left, hsep, h, fuel, hfuel => by
    obtain ⟨out, more, rfl, hout, hmore⟩ := h
    have ih := subFrom_spelled hsep.2.2 hmore
    obtain ⟨blanks, c, hgap⟩ := (List.eq_nil_or_concat' gap.chars).resolve_left hsep.1
    have hblanks := gap.spelled
    rw [hgap, List.all_append, Bool.and_eq_true] at hblanks
    have hc : isBlank c = true := by simpa using hblanks.2
    have hspace := isWhitespace_of_isBlank hc
    have hspelled : ∀ (t : List Char) (rest : List (List Char × Spelling isBlank)),
        spelled gap.chars ((t, after) :: rest)
          = blanks ++ c :: (t ++ spelled after.chars rest) := by
      intro t rest
      rw [spelled, hgap, List.append_assoc, List.singleton_append]
    rw [parts, List.map_cons, ← parts, hspelled] at hfuel ⊢
    rw [hspelled]
    refine subFrom_of_passes (fun fuel hfuel => ?_)
      (passes_blanks hblanks.1 (by simpa using hc)) fuel hfuel
    obtain ⟨fuel, rfl⟩ := Nat.exists_eq_succ_of_ne_zero (Nat.ne_zero_of_lt hfuel)
    have hlt := Nat.lt_of_succ_lt_succ hfuel
    by_cases hp : s.IsPassword
    · rw [if_pos hp] at hout
      obtain ⟨hmatch, rfl⟩ := hout
      rw [List.length_append] at hlt
      rw [subFrom_take hspace hmatch, ih fuel (by omega), Setting.masked, if_pos hp]
      simp
    · rw [if_neg hp] at hout
      rw [subFrom_skip (fun _ => matchSetting_of_not_isPassword hp _),
        subFrom_of_passes ih hout fuel hlt]

end Dsn

namespace KeywordDsn

variable {d e : KeywordDsn}

/-- **What the pattern leaves of a DSN.** -/
theorem sub_text {left : List (List Char × Spelling isBlank)} (h : LeavesFrom d.settings left) :
    sub d.text = spelled d.lead.chars left := by
  have hseparated := d.separated
  unfold text
  generalize d.settings = settings at *
  cases hlead : d.lead.chars with
  | cons c cs =>
    have hc : isBlank c = true := by
      have hblanks := d.lead.spelled
      rw [hlead, List.all_cons, Bool.and_eq_true] at hblanks
      exact hblanks.1
    have hsep : Separated d.lead.chars settings := by
      rw [hlead]
      cases settings with
      | nil => trivial
      | cons s settings => exact ⟨List.cons_ne_nil c cs, hseparated.2⟩
    have hstart : matchSetting (spelled d.lead.chars (parts Setting.text settings)) = none := by
      rw [hlead]
      cases settings with
      | nil => exact matchSetting_of_isBlank hc cs
      | cons s settings => exact matchSetting_of_isBlank hc _
    rw [← hlead, sub, subFrom_atStart _ hstart]
    exact subFrom_spelled hsep h _ (Nat.lt_succ_self _)
  | nil =>
    cases settings with
    | nil =>
      obtain rfl : left = [] := h
      rfl
    | cons s settings =>
      obtain ⟨s, after⟩ := s
      obtain ⟨out, more, rfl, hout, hmore⟩ := h
      have hpos := length_text_pos s
      have ih := subFrom_spelled hseparated.2.2 hmore
      show sub (s.text ++ spelled after.chars (parts Setting.text settings))
        = out ++ spelled after.chars more
      rw [sub]
      by_cases hp : s.IsPassword
      · rw [if_pos hp] at hout
        obtain ⟨hmatch, rfl⟩ := hout
        unfold subFrom
        rw [if_pos rfl, hmatch]
        dsimp only
        rw [ih _ (by rw [List.length_append]; omega), Setting.masked, if_pos hp]
        simp
      · rw [if_neg hp] at hout
        rw [subFrom_atStart _ (matchSetting_of_not_isPassword hp _)]
        exact subFrom_of_passes ih hout _ (Nat.lt_succ_self _)

end KeywordDsn

/-! ## Settings can be read -/

namespace Dsn

/-- **An item is read as it was written.** -/
theorem Item.text_inj {p : Item → Bool} (hplain : p (.plain '\\') = false) {i j : Item}
    (hi : p i = true) (hj : p j = true) {a b : List Char} (h : i.text ++ a = j.text ++ b) :
    i = j ∧ a = b := by
  cases i with
  | plain c =>
    cases j with
    | plain d =>
      obtain ⟨hc, hrest⟩ := List.cons.inj h
      exact ⟨by rw [hc], hrest⟩
    | escaped d =>
      have hc : c = '\\' := (List.cons.inj h).1
      rw [hc, hplain] at hi
      exact absurd hi Bool.false_ne_true
  | escaped c =>
    cases j with
    | plain d =>
      have hd : '\\' = d := (List.cons.inj h).1
      rw [← hd, hplain] at hj
      exact absurd hj Bool.false_ne_true
    | escaped d =>
      obtain ⟨hc, hrest⟩ := List.cons.inj (List.cons.inj h).2
      exact ⟨by rw [hc], hrest⟩

/-- **A list of items ends** where what follows begins with none. -/
theorem items_inj {p : Item → Bool} {E : List Char → Prop} (hplain : p (.plain '\\') = false)
    (hend : ∀ i, p i = true → ∀ cs, ¬ E (i.text ++ cs)) :
    ∀ {is js : List Item} {a b : List Char}, is.all p = true → js.all p = true → E a → E b →
      is.flatMap Item.text ++ a = js.flatMap Item.text ++ b → is = js ∧ a = b
  | [], [], _, _, _, _, _, _, h => ⟨rfl, h⟩
  | [], j :: js, a, b, _, hjs, ha, _, h => by
    rw [List.all_cons, Bool.and_eq_true] at hjs
    rw [List.flatMap_nil, List.nil_append, List.flatMap_cons, List.append_assoc] at h
    exact absurd (h ▸ ha) (hend j hjs.1 _)
  | i :: is, [], a, b, his, _, _, hb, h => by
    rw [List.all_cons, Bool.and_eq_true] at his
    rw [List.flatMap_nil, List.nil_append, List.flatMap_cons, List.append_assoc] at h
    exact absurd (h ▸ hb) (hend i his.1 _)
  | i :: is, j :: js, a, b, his, hjs, ha, hb, h => by
    rw [List.all_cons, Bool.and_eq_true] at his hjs
    rw [List.flatMap_cons, List.flatMap_cons, List.append_assoc, List.append_assoc] at h
    obtain ⟨hij, hrest⟩ := Item.text_inj hplain his.1 hjs.1 h
    obtain ⟨hitems, hab⟩ := items_inj hplain hend his.2 hjs.2 ha hb hrest
    exact ⟨by rw [hij, hitems], hab⟩

/-- What may stand after the items of a value without quotes. -/
def BareEnd (cs : List Char) : Prop := (∀ c ∈ cs.head?, isBlank c = true) ∨ cs = ['\\']

/-- A value does not end before an item of it. -/
theorem not_bareEnd {i : Item} (h : i.isBare = true) (cs : List Char) :
    ¬ BareEnd (i.text ++ cs) := by
  rintro (hblank | hlone)
  · cases i with
    | plain c =>
      rw [Item.isBare, Bool.and_eq_true, hblank c rfl] at h
      exact absurd h.1 (by decide)
    | escaped c => exact absurd (hblank '\\' rfl) (by decide)
  · cases i with
    | plain c =>
      rw [show c = '\\' from (List.cons.inj hlone).1] at h
      exact absurd h (by decide)
    | escaped c => exact absurd (List.cons.inj hlone).2 (List.cons_ne_nil c cs)

/-- What stands after the items of a value in quotes. -/
def QuotedEnd (cs : List Char) : Prop := cs.head? = some '\x27'

theorem not_quotedEnd {i : Item} (h : i.isQuoted = true) (cs : List Char) :
    ¬ QuotedEnd (i.text ++ cs) := by
  intro hquote
  cases i with
  | plain c =>
    rw [show c = '\x27' from Option.some.inj hquote] at h
    exact absurd h (by decide)
  | escaped c => exact absurd (Option.some.inj hquote) (by decide)

/-- What follows a value: nothing or a blank, and nothing if only that ends it. -/
def Value.FollowedBy (v : Value) (a : List Char) : Prop :=
  (∀ c ∈ a.head?, isBlank c = true) ∧ (v.EndsText → a = [])

/-- It ends before a blank, or at the end. -/
theorem Value.bareEnd {items : List Item} {dangling : Bool} {isBare} {noQuote} {a : List Char}
    (h : (Value.bare items dangling isBare noQuote).FollowedBy a) :
    BareEnd ((if dangling then ['\\'] else []) ++ a) := by
  cases dangling with
  | false => exact .inl h.1
  | true =>
    rw [h.2 (.inr rfl)]
    exact .inr rfl

/-- A backslash at the end is read as one. -/
theorem dangling_inj {dangling dangling' : Bool} {a b : List Char}
    (ha : ∀ c ∈ a.head?, isBlank c = true) (hb : ∀ c ∈ b.head?, isBlank c = true)
    (h : (if dangling then ['\\'] else []) ++ a = (if dangling' then ['\\'] else []) ++ b) :
    a = b := by
  have hblank : isBlank '\\' = false := by decide
  cases dangling with
  | false =>
    cases dangling' with
    | false => exact h
    | true =>
      rw [show a = '\\' :: b from h] at ha
      exact absurd (hblank.symm.trans (ha _ rfl)) Bool.false_ne_true
  | true =>
    cases dangling' with
    | false =>
      rw [show b = '\\' :: a from h.symm] at hb
      exact absurd (hblank.symm.trans (hb _ rfl)) Bool.false_ne_true
    | true => exact (List.cons.inj h).2

/-- A value without quotes does not begin with one. -/
theorem Value.text_bare_ne {items : List Item} {dangling : Bool} {isBare} {noQuote}
    {a : List Char} (h : (Value.bare items dangling isBare noQuote).FollowedBy a)
    (b : List Char) : (Value.bare items dangling isBare noQuote).text ++ a ≠ '\x27' :: b := by
  intro heq
  rw [text, List.append_assoc] at heq
  cases items with
  | nil =>
    cases dangling with
    | false =>
      rw [h.2 (.inl rfl)] at heq
      exact absurd heq.symm (List.cons_ne_nil _ b)
    | true => exact absurd (List.cons.inj heq).1 (by decide)
  | cons i is =>
    cases i with
    | plain c =>
      have hc : c = '\x27' := (List.cons.inj heq).1
      exact noQuote (by rw [hc]; rfl)
    | escaped c => exact absurd (List.cons.inj heq).1 (by decide)

/-- **A value can be read.** -/
theorem Value.text_inj {v w : Value} {a b : List Char} (ha : v.FollowedBy a)
    (hb : w.FollowedBy b) (h : v.text ++ a = w.text ++ b) : v.chars = w.chars ∧ a = b := by
  cases v with
  | bare is dangling hbare hquote =>
    cases w with
    | bare js dangling' hbare' hquote' =>
      rw [text, text, List.append_assoc, List.append_assoc] at h
      obtain ⟨hitems, hrest⟩ :=
        items_inj (by decide) (fun _ => not_bareEnd) hbare hbare' (bareEnd ha) (bareEnd hb) h
      exact ⟨congrArg (List.map Item.char) hitems, dangling_inj ha.1 hb.1 hrest⟩
    | quoted js hquoted => exact absurd h (text_bare_ne ha _)
  | quoted is hquoted =>
    cases w with
    | bare js dangling' hbare' hquote' => exact absurd h.symm (text_bare_ne hb _)
    | quoted js hquoted' =>
      rw [text, text, List.cons_append, List.cons_append, List.append_assoc,
        List.append_assoc] at h
      have hend : ∀ cs, QuotedEnd (['\x27'] ++ cs) := fun _ => rfl
      obtain ⟨hitems, hab⟩ := items_inj (E := QuotedEnd) (by decide) (fun _ => not_quotedEnd)
        hquoted hquoted' (hend a) (hend b) (List.cons.inj h).2
      exact ⟨congrArg (List.map Item.char) hitems, (List.cons.inj hab).2⟩

end Dsn

namespace Dsn

/-- **The keyword can be read**, and where the value begins. -/
theorem Setting.head_inj {s t : Setting} {a b : List Char} (ha : ∀ c ∈ a.head?, isBlank c = false)
    (hb : ∀ c ∈ b.head?, isBlank c = false) (h : s.head ++ a = t.head ++ b) :
    s.keyword.chars = t.keyword.chars ∧ a = b := by
  have hequals : isBlank '=' = false := by decide
  have hstart : ∀ cs : List Char, ∀ c ∈ ('=' :: cs).head?, isBlank c = false := by
    rintro _ _ ⟨⟩
    exact hequals
  have hword : ∀ (u : Setting) (cs : List Char),
      ∀ c ∈ (u.before.chars ++ '=' :: cs).head?, isKeywordChar c = false := by
    intro u cs
    refine head_blanks (fun c => not_isKeywordChar_of_isBlank) u.before ?_
    rintro _ ⟨⟩
    decide
  unfold head at h
  simp only [List.append_assoc, List.cons_append] at h
  obtain ⟨hkeyword, h⟩ := append_inj_span (p := isKeywordChar)
    (List.all_eq_true.1 s.keyword.spelled) (List.all_eq_true.1 t.keyword.spelled)
    (hword s _) (hword t _) h
  obtain ⟨_, h⟩ := append_inj_span (p := isBlank) (List.all_eq_true.1 s.before.spelled)
    (List.all_eq_true.1 t.before.spelled) (hstart _) (hstart _) h
  obtain ⟨_, h⟩ := append_inj_span (p := isBlank) (List.all_eq_true.1 s.after.spelled)
    (List.all_eq_true.1 t.after.spelled) ha hb (List.cons.inj h).2
  exact ⟨hkeyword, h⟩

/-- A value does not begin with a blank. -/
theorem Value.head_text {v : Value} {a : List Char} (h : v.FollowedBy a) :
    ∀ c ∈ (v.text ++ a).head?, isBlank c = false := by
  intro c hc
  cases v with
  | bare items dangling hbare hquote =>
    cases items with
    | nil =>
      rw [h.2 (.inl rfl)] at hc
      cases dangling with
      | false => cases hc
      | true =>
        obtain rfl : '\\' = c := Option.some.inj hc
        decide
    | cons i is =>
      rw [List.all_cons, Bool.and_eq_true] at hbare
      cases i with
      | plain d =>
        obtain rfl : d = c := Option.some.inj hc
        have hd := hbare.1
        rw [Item.isBare, Bool.and_eq_true, Bool.not_eq_true'] at hd
        exact hd.1
      | escaped d =>
        obtain rfl : '\\' = c := Option.some.inj hc
        decide
  | quoted is hquoted =>
    obtain rfl : '\x27' = c := Option.some.inj hc
    decide

/-- **A setting can be read.** -/
theorem Setting.text_inj {s t : Setting} {a b : List Char} (ha : s.value.FollowedBy a)
    (hb : t.value.FollowedBy b) (h : s.text ++ a = t.text ++ b) :
    s.keyword.chars = t.keyword.chars ∧ s.value.chars = t.value.chars ∧ a = b := by
  unfold text at h
  rw [List.append_assoc, List.append_assoc] at h
  obtain ⟨hkeyword, hrest⟩ := head_inj (Value.head_text ha) (Value.head_text hb) h
  exact ⟨hkeyword, Value.text_inj ha hb hrest⟩

theorem Setting.head_text (s : Setting) (a : List Char) :
    ∀ c ∈ (s.text ++ a).head?, isBlank c = false := by
  intro c hc
  obtain ⟨d, ds, hd⟩ := List.exists_cons_of_ne_nil s.ne_nil
  unfold text head at hc
  rw [hd] at hc
  obtain rfl : d = c := Option.some.inj hc
  refine not_isBlank_of_isKeywordChar (List.all_eq_true.1 s.keyword.spelled d ?_)
  rw [hd]
  exact List.mem_cons_self

/-- A setting whose value is another if it is a password. -/
def Setting.hidden (s : Setting) : Setting :=
  if s.IsPassword then
    { s with value := .bare [.plain '*', .plain '*', .plain '*'] false (by decide) (by decide) }
  else s

theorem Setting.keyword_hidden (s : Setting) : s.hidden.keyword = s.keyword := by
  unfold hidden
  split_ifs <;> rfl

/-- What is masked is the text of what is hidden. -/
theorem Setting.masked_eq (s : Setting) : s.masked = s.hidden.text := by
  unfold masked hidden
  split_ifs <;> rfl

/-- **Settings that differ in a password only** are masked alike. -/
theorem Setting.masked_of_same {s t : Setting}
    (h : s = t ∨ s.IsPassword ∧ ∃ value, t = s.withValue value) : s.masked = t.masked := by
  rcases h with rfl | ⟨hpassword, value, rfl⟩
  · rfl
  · have hpassword' : (s.withValue value).IsPassword := hpassword
    unfold masked
    rw [if_pos hpassword, if_pos hpassword']
    rfl

/-- A blank is before what follows a setting. -/
theorem head_spelled {f : Setting → List Char} {after : Spelling isBlank}
    {settings : List (Setting × Spelling isBlank)} (h : Separated after.chars settings) :
    ∀ c ∈ (spelled after.chars (parts f settings)).head?, isBlank c = true := by
  intro c hc
  cases settings with
  | nil => exact List.all_eq_true.1 after.spelled c (List.mem_of_mem_head? hc)
  | cons s settings =>
    obtain ⟨d, ds, hd⟩ := List.exists_cons_of_ne_nil h.1
    rw [parts, List.map_cons, spelled, hd] at hc
    obtain rfl : d = c := Option.some.inj hc
    refine List.all_eq_true.1 after.spelled d ?_
    rw [hd]
    exact List.mem_cons_self

theorem separated_cons {gap : List Char} {settings : List (Setting × Spelling isBlank)} {c : Char}
    (h : Separated gap settings) : Separated (c :: gap) settings := by
  cases settings with
  | nil => trivial
  | cons s settings => exact ⟨List.cons_ne_nil c gap, h.2⟩

/-- What follows a setting of a DSN. -/
theorem Setting.followedBy {s : Setting} {f : Setting → List Char} {gap : List Char}
    {after : Spelling isBlank} {settings : List (Setting × Spelling isBlank)}
    (h : Separated gap ((s, after) :: settings)) :
    s.hidden.value.FollowedBy (spelled after.chars (parts f settings)) := by
  refine ⟨head_spelled h.2.2, fun hends => ?_⟩
  unfold hidden at hends
  split_ifs at hends with hp
  · rcases hends with hnil | hfalse
    · exact absurd hnil (List.cons_ne_nil _ _)
    · exact absurd hfalse Bool.false_ne_true
  · obtain ⟨hafter, rfl⟩ := h.2.1 hends
    exact hafter

/-- What is set, once the passwords are hidden. -/
def SameHidden (s t : Setting × Spelling isBlank) : Prop :=
  s.1.keyword.chars = t.1.keyword.chars ∧ s.1.hidden.value.chars = t.1.hidden.value.chars

/-- **Settings can be read** from the text without passwords. By induction on the settings; each is
up to the blanks after it. -/
theorem spelled_inj :
    ∀ {settings settings' : List (Setting × Spelling isBlank)} {gap gap' : Spelling isBlank},
      Separated (' ' :: gap.chars) settings → Separated (' ' :: gap'.chars) settings' →
      spelled gap.chars (parts Setting.masked settings)
        = spelled gap'.chars (parts Setting.masked settings') →
      List.Forall₂ SameHidden settings settings'
  | [], [], _, _, _, _, _ => .nil
  | [], (t, after) :: settings, gap, gap', _, _, h => by
    rw [parts, parts, List.map_nil, List.map_cons, spelled, spelled, t.masked_eq,
      ← List.append_nil gap.chars] at h
    have hnil := (append_inj_span (p := isBlank) (List.all_eq_true.1 gap.spelled)
      (List.all_eq_true.1 gap'.spelled) (by simp) (t.hidden.head_text _) h).2
    have hpos := length_text_pos t.hidden
    rw [(List.append_eq_nil_iff.1 hnil.symm).1] at hpos
    exact absurd hpos (lt_irrefl 0)
  | (s, after) :: settings, [], gap, gap', _, _, h => by
    rw [parts, parts, List.map_nil, List.map_cons, spelled, spelled, s.masked_eq,
      ← List.append_nil gap'.chars] at h
    have hnil := (append_inj_span (p := isBlank) (List.all_eq_true.1 gap.spelled)
      (List.all_eq_true.1 gap'.spelled) (s.hidden.head_text _) (by simp) h).2
    have hpos := length_text_pos s.hidden
    rw [(List.append_eq_nil_iff.1 hnil).1] at hpos
    exact absurd hpos (lt_irrefl 0)
  | (s, after) :: settings, (t, after') :: settings', gap, gap', hsep, hsep', h => by
    rw [parts, parts, List.map_cons, List.map_cons, spelled, spelled, s.masked_eq,
      t.masked_eq] at h
    have hrest := (append_inj_span (p := isBlank) (List.all_eq_true.1 gap.spelled)
      (List.all_eq_true.1 gap'.spelled) (s.hidden.head_text _) (t.hidden.head_text _) h).2
    obtain ⟨hkeyword, hvalue, hrest⟩ :=
      Setting.text_inj (Setting.followedBy hsep) (Setting.followedBy hsep') hrest
    rw [s.keyword_hidden, t.keyword_hidden] at hkeyword
    exact .cons ⟨hkeyword, hvalue⟩
      (spelled_inj (separated_cons hsep.2.2) (separated_cons hsep'.2.2) hrest)

end Dsn

namespace KeywordDsn

variable {d e : KeywordDsn}

/-- **What is set can be read** from the text without passwords. -/
theorem location_of_masked (h : d.masked = e.masked) : d.location = e.location := by
  have hall := spelled_inj d.separated e.separated h
  unfold location
  generalize d.settings = settings at hall
  generalize e.settings = settings' at hall
  induction hall with
  | nil => rfl
  | @cons s t settings settings' hsame _ ih =>
    have hiff : s.1.IsPassword ↔ t.1.IsPassword := by
      unfold Setting.IsPassword
      rw [hsame.1]
    by_cases hs : s.1.IsPassword
    · rw [List.filter_cons_of_neg (by simpa using hs),
        List.filter_cons_of_neg (by simpa using hiff.1 hs)]
      exact ih
    · have ht := fun ht => hs (hiff.2 ht)
      have hvalue := hsame.2
      unfold Setting.hidden at hvalue
      rw [if_neg hs, if_neg ht] at hvalue
      rw [List.filter_cons_of_pos (by simpa using hs), List.filter_cons_of_pos (by simpa using ht),
        List.map_cons, List.map_cons, ih, hsame.1, hvalue]

end KeywordDsn

namespace Dsn

/-- **What is left does not depend on passwords.** By induction on the settings. -/
theorem left_of_sameSetting :
    ∀ {settings settings' : List (Setting × Spelling isBlank)} {gap gap' : List Char}
      {left left' : List (List Char × Spelling isBlank)},
      Separated gap settings → Separated gap' settings' →
      List.Forall₂ SameSetting settings settings' → LeavesFrom settings left →
      LeavesFrom settings' left' → left = left'
  | [], [], _, _, left, left', _, _, _, h, h' => (show left = [] from h).trans (Eq.symm h')
  | (s, after) :: settings, (t, after') :: settings', gap, gap', _, _, hsep, hsep', hsame,
      h, h' => by
    obtain ⟨out, more, rfl, hout, hmore⟩ := h
    obtain ⟨out', more', rfl, hout', hmore'⟩ := h'
    cases hsame with
    | cons hfirst hrest =>
      obtain ⟨hafter, hsetting⟩ := hfirst
      obtain rfl : after = after' := hafter
      have hsetting : s = t ∨ s.IsPassword ∧ ∃ value, t = s.withValue value := hsetting
      rw [left_of_sameSetting hsep.2.2 hsep'.2.2 hrest hmore hmore']
      have hblank : ∀ {gap : List Char} {s : Setting}
          {settings : List (Setting × Spelling isBlank)}, Separated gap ((s, after) :: settings) →
          ∀ c ∈ (spelled after.chars (parts Setting.text settings)).head?, isWhitespace c = true :=
        fun hsep c hc => isWhitespace_of_isBlank (head_spelled hsep.2.2 c hc)
      by_cases hp : s.IsPassword
      · have hp' : t.IsPassword := by
          rcases hsetting with rfl | ⟨_, value, rfl⟩
          · exact hp
          · exact hp
        rw [if_pos hp] at hout
        rw [if_pos hp'] at hout'
        rw [hout.2, hout'.2, Setting.masked_of_same hsetting]
      · obtain rfl : s = t := hsetting.resolve_right (fun h => hp h.1)
        rw [if_neg hp] at hout hout'
        rw [hout.unique (hblank hsep) (hblank hsep') hout']

end Dsn

/-! ## Plain passwords -/

namespace Dsn

/-- A value that the pattern takes to its end: in quotes, without a quote in it, or without quotes
and blanks. -/
def Value.Plain : Value → Prop
  | .bare items dangling isBare noQuote =>
    (Value.bare items dangling isBare noQuote).text ≠ []
      ∧ (Value.bare items dangling isBare noQuote).text.all (fun c => !isWhitespace c) = true
      ∧ (Value.bare items dangling isBare noQuote).text.head? ≠ some '"'
  | .quoted items _ => '\x27' ∉ items.flatMap Item.text

/-- **A plain value** is taken as a whole. -/
theorem Value.Plain.takeValue_eq {v : Value} (h : v.Plain) {rest : List Char}
    (hrest : v.FollowedBy rest) : takeValue (v.text ++ rest) = some rest := by
  cases v with
  | bare items dangling hbare hquote =>
    obtain ⟨hne, hvisible, hdouble⟩ := h
    have hsingle := fun cs => Value.text_bare_ne hrest cs
    generalize (Value.bare items dangling hbare hquote).text = t at *
    obtain ⟨c, cs, rfl⟩ := List.exists_cons_of_ne_nil hne
    have hall := List.all_eq_true.1 hvisible
    have hc : ¬ isWhitespace c = true := by
      have := hall c List.mem_cons_self
      rw [Bool.not_eq_true'] at this
      rw [this]
      exact Bool.false_ne_true
    have hfirst : ¬ (c = '\x27' ∨ c = '"') := by
      rintro (rfl | rfl)
      · exact hsingle (cs ++ rest) rfl
      · exact hdouble rfl
    rw [List.cons_append, takeValue, if_neg (fun hq => hfirst hq.1), if_neg hc,
      (span_append (fun d hd => hall d (List.mem_cons_of_mem _ hd)) (fun d hd => ?_)).2]
    rw [isWhitespace_of_isBlank (hrest.1 d hd)]
    rfl
  | quoted items hquoted =>
    have hnot : '\x27' ∉ items.flatMap Item.text := h
    rw [Value.text, List.cons_append, List.append_assoc, List.singleton_append, takeValue,
      if_pos ⟨.inl rfl, List.mem_append_right _ List.mem_cons_self⟩, partition_append hnot]

/-- **A plain password is taken to its end.** -/
theorem matchSetting_of_plain {s : Setting} (hp : s.IsPassword) (h : s.value.Plain)
    {rest : List Char} (hrest : s.value.FollowedBy rest) :
    matchSetting (s.text ++ rest) = some (s.head, rest) := by
  have hhead : ∀ c ∈ (s.value.text ++ rest).head?, isWhitespace c = false := by
    intro c hc
    cases hv : s.value with
    | bare items dangling hbare hquote =>
      rw [hv] at h hc
      obtain ⟨hne, hvisible, _⟩ := h
      obtain ⟨d, ds, hd⟩ := List.exists_cons_of_ne_nil hne
      rw [hd] at hc hvisible
      obtain rfl : d = c := Option.some.inj hc
      simpa using List.all_eq_true.1 hvisible d List.mem_cons_self
    | quoted items hquoted =>
      rw [hv] at hc
      obtain rfl : '\x27' = c := Option.some.inj hc
      decide
  have hblank : ∀ blanks : Spelling isBlank, ∀ c ∈ blanks.chars, isWhitespace c = true :=
    fun blanks c hc => isWhitespace_of_isBlank (List.all_eq_true.1 blanks.spelled c hc)
  obtain ⟨htake, hdrop⟩ := span_append (hblank s.before)
    (b := '=' :: (s.after.chars ++ (s.value.text ++ rest))) (by rintro _ ⟨⟩; decide)
  obtain ⟨htake', hdrop'⟩ := span_append (hblank s.after) hhead
  have hword : ∀ cs, takeWord ['p', 'a', 's', 's', 'w', 'o', 'r', 'd']
      (['p', 'a', 's', 's', 'w', 'o', 'r', 'd'] ++ cs)
        = some (['p', 'a', 's', 's', 'w', 'o', 'r', 'd'], cs) := fun _ => rfl
  have hkeyword : takeKeyword (s.text ++ rest) = some (s.head, s.value.text ++ rest) := by
    unfold takeKeyword Setting.head
    rw [s.text_append, show s.keyword.chars = _ from hp, hword]
    dsimp only [Option.bind_some]
    rw [hdrop]
    dsimp only
    rw [if_pos rfl, htake, htake', hdrop', List.append_assoc]
  unfold matchSetting
  rw [hkeyword, Option.bind_some, h.takeValue_eq hrest]
  rfl

end Dsn

/-- **DSNs with plain passwords**, and no blanks in other settings, are handled. -/
theorem KeywordDsn.handled_of_plain (d : KeywordDsn)
    (h : ∀ s ∈ d.settings, (s.1.IsPassword → s.1.value.Plain ∧ ¬ s.1.value.EndsText)
      ∧ (¬ s.1.IsPassword → s.1.text.all (fun c => !isWhitespace c) = true)) : d.Handled := by
  have hseparated := d.separated
  unfold Handled
  generalize d.settings = settings at *
  generalize (' ' :: d.lead.chars) = gap at hseparated
  induction settings generalizing gap with
  | nil => rfl
  | cons s settings ih =>
    obtain ⟨s, after⟩ := s
    obtain ⟨hpassword, hother⟩ := h (s, after) List.mem_cons_self
    refine ⟨s.masked, parts Setting.masked settings, rfl, ?_,
      ih (fun t ht => h t (List.mem_cons_of_mem _ ht)) _ hseparated.2.2⟩
    by_cases hp : s.IsPassword
    · obtain ⟨hplain, hends⟩ := hpassword hp
      rw [if_pos hp]
      exact ⟨matchSetting_of_plain hp hplain
        ⟨head_spelled hseparated.2.2, fun he => absurd he hends⟩, rfl⟩
    · rw [if_neg hp, Setting.masked, if_neg hp]
      exact Passes.of_not_isWhitespace (hother hp)

/-! ## A keyword DSN is no URL -/

namespace Url

/-- A separator that is not in the first part is in the second. -/
theorem partition_append_of_notMem {sep : Char} :
    ∀ {a : List Char} (b : List Char), sep ∉ a →
      (partition sep (a ++ b)).1 = a ++ (partition sep b).1
  | [], _, _ => rfl
  | c :: a, b, h => by
    have hc : c ≠ sep := fun heq => h (heq ▸ List.mem_cons_self)
    rw [List.cons_append, partition, if_neg hc,
      partition_append_of_notMem b (fun hmem => h (List.mem_cons_of_mem _ hmem)),
      List.cons_append]

/-- An equals sign is in no scheme. -/
theorem splitScheme_of_equals {a b : List Char} (ha : ':' ∉ a) :
    splitScheme (a ++ '=' :: b) = ([], a ++ '=' :: b) := by
  have hfirst := partition_append_of_notMem ('=' :: b) ha
  rw [partition, if_neg (by decide)] at hfirst
  unfold splitScheme
  generalize partition ':' (a ++ '=' :: b) = parts at hfirst
  obtain ⟨scheme, rest⟩ := parts
  have hmem : '=' ∈ scheme := by
    rw [show scheme = _ from hfirst]
    exact List.mem_append_right _ List.mem_cons_self
  cases scheme with
  | nil => rfl
  | cons c scheme =>
    cases rest with
    | none => rfl
    | some rest =>
      have hall : (c :: scheme).all isSchemeChar = false := by
        rw [← Bool.not_eq_true]
        intro hall
        exact absurd (List.all_eq_true.1 hall '=' hmem) (by decide)
      dsimp only
      rw [hall, Bool.and_false, if_neg Bool.false_ne_true]

/-- Without a slash there is no authority. -/
theorem splitNetloc_of_ne {c : Char} (cs : List Char) (h : c ≠ '/') :
    splitNetloc (c :: cs) = ([], c :: cs) := by
  cases cs with
  | nil => rfl
  | cons d cs =>
    rw [splitNetloc, if_neg (fun hslash => h hslash.1)]

/-- Without a netloc there is no password. -/
theorem password_of_urlsplit {url : List Char} {parsed : SplitResult}
    (h : urlsplit url = some parsed)
    (hnetloc : (splitNetloc (splitScheme
      ((url.dropWhile isControlOrSpace).filter (fun c => !isUnsafe c))).2).1 = []) :
    parsed.password = none := by
  unfold urlsplit at h
  dsimp only at h
  rw [hnetloc] at h
  split_ifs at h
  obtain rfl := Option.some.inj h
  rfl

end Url

namespace KeywordDsn

variable (d : KeywordDsn)

/-- `urlparse` finds no netloc. -/
theorem netloc_text : (splitNetloc (splitScheme
    ((d.text.dropWhile isControlOrSpace).filter (fun c => !isUnsafe c))).2).1 = [] := by
  have hlead : ∀ c ∈ d.lead.chars, isControlOrSpace c = true := fun c hc =>
    decide_eq_true (toNat_of_isBlank (List.all_eq_true.1 d.lead.spelled c hc))
  unfold text
  cases d.settings with
  | nil =>
    rw [parts, List.map_nil, spelled, ← List.append_nil d.lead.chars,
      (span_append (p := isControlOrSpace) hlead (by simp)).2]
    rfl
  | cons s settings =>
    obtain ⟨s, after⟩ := s
    obtain ⟨c, cs, hc⟩ := List.exists_cons_of_ne_nil s.ne_nil
    have hword := s.keyword.spelled
    rw [hc, List.all_cons, Bool.and_eq_true] at hword
    have hrange := range_of_isKeywordChar hword.1
    have hcontrol : isControlOrSpace c = false := decide_eq_false (by omega)
    have hsafe : isUnsafe c = false := by
      rw [← Bool.not_eq_true]
      intro hunsafe
      simp only [isUnsafe, Bool.or_eq_true, decide_eq_true_eq] at hunsafe
      rcases hunsafe with (rfl | rfl) | rfl <;> revert hrange <;> decide
    have hcolon : ':' ∉ (c :: cs ++ s.before.chars).filter (fun c => !isUnsafe c) := by
      intro hmem
      rw [← hc] at hmem
      rcases List.mem_append.1 (List.mem_filter.1 hmem).1 with hmem | hmem
      · exact absurd (List.all_eq_true.1 s.keyword.spelled _ hmem) (by decide)
      · exact absurd (List.all_eq_true.1 s.before.spelled _ hmem) (by decide)
    rw [parts, List.map_cons, spelled, Setting.text, Setting.head, hc]
    simp only [List.append_assoc, List.cons_append]
    rw [← parts]
    rw [(span_append (p := isControlOrSpace) hlead (by rintro _ ⟨⟩; exact hcontrol)).2]
    rw [show c :: (cs ++ (s.before.chars ++ '=' :: (s.after.chars ++ (s.value.text
        ++ spelled after.chars (parts Setting.text settings)))))
      = (c :: cs ++ s.before.chars) ++ '=' :: (s.after.chars ++ (s.value.text
        ++ spelled after.chars (parts Setting.text settings))) by simp,
      List.filter_append, List.filter_cons_of_pos (by decide), splitScheme_of_equals hcolon]
    dsimp only
    rw [List.cons_append, List.filter_cons_of_pos (by rw [hsafe]; rfl), List.cons_append,
      splitNetloc_of_ne _ (by rintro rfl; revert hrange; decide)]

/-- **A keyword DSN is for the pattern.** -/
theorem redactPostgresDsn_text :
    redactPostgresDsn (String.ofList d.text) = String.ofList (sub d.text) := by
  unfold redactPostgresDsn
  rw [String.toList_ofList]
  cases hsplit : urlsplit d.text with
  | none => rfl
  | some parsed =>
    dsimp only
    rw [password_of_urlsplit hsplit d.netloc_text]

variable {d} {e : KeywordDsn}

/-- **DSNs that differ only in passwords become one text.** -/
theorem redact_eq_of_differs (hd : d.Aligned) (he : e.Aligned) (h : d.Differs e) :
    redactPostgresDsn (String.ofList d.text) = redactPostgresDsn (String.ofList e.text) := by
  obtain ⟨left, hleft⟩ := hd
  obtain ⟨left', hleft'⟩ := he
  rw [redactPostgresDsn_text, redactPostgresDsn_text, sub_text hleft, sub_text hleft', h.1,
    left_of_sameSetting d.separated e.separated h.2 hleft hleft']

/-- **A DSN that is handled** is redacted to its masked text. -/
theorem redactPostgresDsn_of_handled (h : d.Handled) :
    redactPostgresDsn (String.ofList d.text) = String.ofList d.masked := by
  rw [redactPostgresDsn_text, sub_text h]
  rfl

/-- **DSNs that become one text set the same** but for passwords. -/
theorem location_of_redact (hd : d.Handled) (he : e.Handled)
    (h : redactPostgresDsn (String.ofList d.text) = redactPostgresDsn (String.ofList e.text)) :
    d.location = e.location := by
  rw [redactPostgresDsn_of_handled hd, redactPostgresDsn_of_handled he] at h
  exact location_of_masked (String.ofList_inj.1 h)

/-- A setting up to its equals sign, and what follows. -/
theorem masked_append (s : Setting) (gap rest : List Char) : ∃ cs, gap ++ (s.masked ++ rest)
    = (gap ++ (s.keyword.chars ++ s.before.chars)) ++ '=' :: cs := by
  refine ⟨s.after.chars ++ ((if s.IsPassword then ['*', '*', '*'] else s.value.text) ++ rest), ?_⟩
  unfold Setting.masked Setting.head
  simp only [List.append_assoc, List.cons_append]

/-- A redacted URI begins with a scheme. -/
theorem uri_ne {u : ConnectionUrl} (huri : u.IsUri) (hd : d.Handled) :
    redactPostgresDsn (String.ofList u.text) ≠ redactPostgresDsn (String.ofList d.text) := by
  have hscheme : ∃ cs, redactPostgresDsn (String.ofList u.text)
      = String.ofList (u.scheme.chars ++ ':' :: cs) := by
    by_cases h : u.HasPassword ∧ u.PortReadable
    · exact ⟨_, ConnectionUrl.redactPostgresDsn_of_masked huri h.1 h.2⟩
    · exact ⟨_, ConnectionUrl.redactPostgresDsn_of_not huri h⟩
  obtain ⟨cs, hcs⟩ := hscheme
  rw [hcs, redactPostgresDsn_of_handled hd]
  intro heq
  have htext := String.ofList_inj.1 heq
  have hscheme : ∀ c ∈ u.scheme.chars, c.isLower = true := List.all_eq_true.1 u.scheme.lower
  have hcolon : ':' ∉ u.scheme.chars := fun hmem => absurd (hscheme _ hmem) (by decide)
  have hfirst : u.scheme.chars = (partition ':' d.masked).1 := by
    rw [← htext, partition_append hcolon]
  unfold masked at htext hfirst
  have hlead : ':' ∉ d.lead.chars := fun hmem =>
    absurd (List.all_eq_true.1 d.lead.spelled _ hmem) (by decide)
  cases hsettings : d.settings with
  | nil =>
    rw [hsettings, parts, List.map_nil, spelled] at htext
    exact hlead (htext ▸ List.mem_append_right _ List.mem_cons_self)
  | cons s settings =>
    obtain ⟨s, after⟩ := s
    have hhead : ':' ∉ d.lead.chars ++ (s.keyword.chars ++ s.before.chars) := by
      intro hmem
      rcases List.mem_append.1 hmem with hmem | hmem
      · exact hlead hmem
      · rcases List.mem_append.1 hmem with hmem | hmem
        · exact absurd (List.all_eq_true.1 s.keyword.spelled _ hmem) (by decide)
        · exact absurd (List.all_eq_true.1 s.before.spelled _ hmem) (by decide)
    obtain ⟨rest, hrest⟩ := masked_append s d.lead.chars
      (spelled after.chars (parts Setting.masked settings))
    rw [hsettings, parts, List.map_cons, spelled, ← parts, hrest,
      partition_append_of_notMem _ hhead, partition,
      if_neg (by decide)] at hfirst
    refine absurd (hscheme '=' ?_) (by decide)
    rw [hfirst]
    exact List.mem_append_right _ List.mem_cons_self

end KeywordDsn

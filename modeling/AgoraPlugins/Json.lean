import AgoraPlugins.Double

/-!
# JSON texts

A value of a dynamic language as its JSON encoder sees it, the text the encoder
makes of it, and the reading of a text. The encoder escapes what has to be and
nothing else, and puts a blank after a comma and a colon. What has no JSON form is
written as a string (`Json.other`), so that reading back what was written gives the
value in normal form (`Json.loads_dumps`), which for a value that has a JSON form is
the value itself.

An object is given by its members. Their order is not observed by anything here, and
of two members with one key a reader sees the last. A number is an integer or a double,
which is written as Python writes it; the three doubles that are no numbers have texts of
their own, which the reader takes as well.
-/

/-- A value that can be written as JSON. -/
inductive Json where
  | null
  | bool (b : Bool)
  | num (n : ℤ)
  | float (x : Double)
  | str (s : String)
  /-- something without a JSON form, by the text that stands for it -/
  | other (text : String)
  | arr (items : List Json)
  | obj (members : List (String × Json))

namespace Json

/-- The last member with this key. -/
def find (key : String) : List (String × Json) → Option Json
  | [] => none
  | (k, v) :: members =>
    match find key members with
    | some w => some w
    | none => if k = key then some v else none

/-- The members with another value under this key, which has its place if it is there. -/
def assign (key : String) (v : Json) : List (String × Json) → List (String × Json)
  | [] => [(key, v)]
  | (k, w) :: members =>
    if k = key then (k, v) :: members.filter (fun m => m.1 ≠ key)
    else (k, w) :: assign key v members

theorem find_assign_ne {key key' : String} (h : key' ≠ key) (v : Json)
    (members : List (String × Json)) : find key' (assign key v members) = find key' members := by
  have hfilter : ∀ members : List (String × Json),
      find key' (members.filter (fun m => m.1 ≠ key)) = find key' members := by
    intro members
    induction members with
    | nil => rfl
    | cons m members ih =>
      obtain ⟨k, w⟩ := m
      by_cases hk : k = key
      · subst hk
        rw [List.filter_cons_of_neg (by simp), ih, find, if_neg (Ne.symm h)]
        cases find key' members <;> rfl
      · rw [List.filter_cons_of_pos (by simpa using hk), find, find, ih]
  induction members with
  | nil => exact if_neg (Ne.symm h)
  | cons m members ih =>
    obtain ⟨k, w⟩ := m
    rw [assign]
    split
    next hk =>
      subst hk
      rw [find, find, hfilter, if_neg (Ne.symm h), if_neg (Ne.symm h)]
    next => rw [find, find, ih]

/-- The later of two values stays. -/
theorem assign_assign (key : String) (v w : Json) (members : List (String × Json)) :
    assign key v (assign key w members) = assign key v members := by
  induction members with
  | nil => simp [assign]
  | cons m members ih =>
    obtain ⟨k, u⟩ := m
    rw [assign, assign]
    split
    next hk =>
      rw [assign, if_pos hk, List.filter_filter]
      simp
    next hk => rw [assign, if_neg hk, ih]

/-- The member of an object with this key. -/
def get (key : String) : Json → Option Json
  | .obj members => find key members
  | _ => none

/-- The members of an object are looked through. -/
@[simp] theorem get_obj (key : String) (members : List (String × Json)) :
    (obj members).get key = find key members := rfl

mutual
/-- The value that is read back. -/
def normal : Json → Json
  | .other text => .str text
  | .arr items => .arr (normalItems items)
  | .obj members => .obj (normalMembers members)
  | .null => .null
  | .bool b => .bool b
  | .num n => .num n
  | .float x => .float x
  | .str s => .str s

def normalItems : List Json → List Json
  | [] => []
  | v :: items => normal v :: normalItems items

def normalMembers : List (String × Json) → List (String × Json)
  | [] => []
  | (k, v) :: members => (k, normal v) :: normalMembers members
end

mutual
/-- **What is a JSON value**: it has a JSON form, and its numbers are numbers. -/
def isJson : Json → Bool
  | .other _ => false
  | .float (.finite _ _) => true
  | .float (.infinite _) => false
  | .float .nan => false
  | .arr items => areJson items
  | .obj members => areJsonMembers members
  | .null => true
  | .bool _ => true
  | .num _ => true
  | .str _ => true

def areJson : List Json → Bool
  | [] => true
  | v :: items => isJson v && areJson items

def areJsonMembers : List (String × Json) → Bool
  | [] => true
  | (_, v) :: members => isJson v && areJsonMembers members
end

mutual
/-- How deep arrays and objects stand in one another. -/
def depth : Json → ℕ
  | .arr items => depthItems items + 1
  | .obj members => depthMembers members + 1
  | .null | .bool _ | .num _ | .float _ | .str _ | .other _ => 0

def depthItems : List Json → ℕ
  | [] => 0
  | v :: items => max (depth v) (depthItems items)

def depthMembers : List (String × Json) → ℕ
  | [] => 0
  | (_, v) :: members => max (depth v) (depthMembers members)
end

/-! ## Writing -/

/-- The characters with a meaning of their own. -/
def quote : Char := Char.ofNat 34
def backslash : Char := Char.ofNat 92
def openBrace : Char := Char.ofNat 123
def closeBrace : Char := Char.ofNat 125

/-- Four hexadecimal digits. -/
def hex4 (n : ℕ) : List Char :=
  [Nat.digitChar (n / 4096 % 16), Nat.digitChar (n / 256 % 16), Nat.digitChar (n / 16 % 16),
    Nat.digitChar (n % 16)]

/-- A character inside a string. -/
def escape (c : Char) : List Char :=
  if c = quote then [backslash, quote]
  else if c = backslash then [backslash, backslash]
  else if c.toNat = 8 then [backslash, 'b']
  else if c.toNat = 9 then [backslash, 't']
  else if c.toNat = 10 then [backslash, 'n']
  else if c.toNat = 12 then [backslash, 'f']
  else if c.toNat = 13 then [backslash, 'r']
  else if c.toNat < 32 then backslash :: 'u' :: hex4 c.toNat
  else [c]

/-- The texts of the doubles that are no numbers. -/
def infinity : List Char := ['I', 'n', 'f', 'i', 'n', 'i', 't', 'y']
def notANumber : List Char := ['N', 'a', 'N']

/-- The sign is written for negative numbers only. -/
def sign (negative : Bool) : List Char := if negative then ['-'] else []

/-- A decimal number. -/
def writeParts (p : Double.Parts) : List Char := Nat.toDigits 10 p.whole ++ p.tail

/-- `float.__repr__`, as far as JSON has it. -/
def writeFloat : Double → List Char
  | .finite negative m =>
    sign negative ++ writeParts (Double.parts (Double.shortest m.units).1 (Double.shortest m.units).2)
  | .infinite negative => sign negative ++ infinity
  | .nan => notANumber

/-- **A text** in quotes, with what has to be escaped in it. -/
def writeString (s : String) : List Char :=
  quote :: s.toList.flatMap escape ++ [quote]

mutual
/-- **What the encoder writes.** -/
def write : Json → List Char
  | .null => ['n', 'u', 'l', 'l']
  | .bool true => ['t', 'r', 'u', 'e']
  | .bool false => ['f', 'a', 'l', 's', 'e']
  | .num (.ofNat n) => Nat.toDigits 10 n
  | .num (.negSucc n) => '-' :: Nat.toDigits 10 (n + 1)
  | .float x => writeFloat x
  | .str s => writeString s
  | .other text => writeString text
  | .arr items => '[' :: writeItems items ++ [']']
  | .obj members => openBrace :: writeMembers members ++ [closeBrace]

/-- Items with a comma and a blank between them. -/
def writeItems : List Json → List Char
  | [] => []
  | [v] => write v
  | v :: w :: items => write v ++ ',' :: ' ' :: writeItems (w :: items)

/-- Members likewise, their keys in quotes. -/
def writeMembers : List (String × Json) → List Char
  | [] => []
  | [(k, v)] => writeString k ++ ':' :: ' ' :: write v
  | (k, v) :: m :: members =>
    writeString k ++ ':' :: ' ' :: write v ++ ',' :: ' ' :: writeMembers (m :: members)
end

/-- `json.dumps`. -/
def dumps (v : Json) : String := String.ofList (write v)

/-! ## Reading -/

/-- The four characters that may stand between tokens. -/
def isBlank (c : Char) : Bool := c.toNat = 32 || c.toNat = 9 || c.toNat = 10 || c.toNat = 13

def skipBlanks (cs : List Char) : List Char := cs.dropWhile isBlank

/-- The value of a hexadecimal digit. -/
def hexValue (c : Char) : Option ℕ :=
  if c.isDigit then some (c.toNat - 48)
  else if 97 ≤ c.toNat ∧ c.toNat ≤ 102 then some (c.toNat - 87)
  else if 65 ≤ c.toNat ∧ c.toNat ≤ 70 then some (c.toNat - 55)
  else none

/-- The number four hexadecimal digits stand for. -/
def hexValue4 (a b c d : Char) : Option ℕ := do
  let a ← hexValue a
  let b ← hexValue b
  let c ← hexValue c
  let d ← hexValue d
  pure (a * 4096 + b * 256 + c * 16 + d)

/-- The character of a single-character escape. -/
def unescape (c : Char) : Option Char :=
  if c = quote ∨ c = backslash ∨ c = '/' then some c
  else if c = 'b' then some (Char.ofNat 8)
  else if c = 't' then some (Char.ofNat 9)
  else if c = 'n' then some (Char.ofNat 10)
  else if c = 'f' then some (Char.ofNat 12)
  else if c = 'r' then some (Char.ofNat 13)
  else none

/-- Four hexadecimal digits at the start of a text. -/
def readHex4 : List Char → Option (ℕ × List Char)
  | a :: b :: c :: d :: cs => (hexValue4 a b c d).map (fun n => (n, cs))
  | _ => none

/-- The other half of a surrogate pair. -/
def readLowSurrogate : List Char → Option (ℕ × List Char)
  | c :: 'u' :: cs =>
    if c = backslash then
      (readHex4 cs).bind (fun r => if 0xDC00 ≤ r.1 ∧ r.1 < 0xE000 then some r else none)
    else none
  | _ => none

/-- An escape after its backslash. A surrogate without its other half is no character, and
is read as the one that stands for such. -/
def readEscape : List Char → Option (Char × List Char)
  | [] => none
  | c :: cs =>
    if c = 'u' then
      (readHex4 cs).map (fun r =>
        if r.1 < 0xD800 ∨ 0xE000 ≤ r.1 then (Char.ofNat r.1, r.2)
        else match if r.1 < 0xDC00 then readLowSurrogate r.2 else none with
          | some t => (Char.ofNat (0x10000 + (r.1 - 0xD800) * 1024 + (t.1 - 0xDC00)), t.2)
          | none => (Char.ofNat 0xFFFD, r.2))
    else (unescape c).map (fun d => (d, cs))

/-- A character of a string, escaped or not. -/
def readChar : List Char → Option (Char × List Char)
  | [] => none
  | c :: cs =>
    if c = backslash then readEscape cs
    else if c.toNat < 32 then none
    else some (c, cs)

/-- The characters of a string after its opening quote, and what follows it. -/
def readString : ℕ → List Char → Option (List Char × List Char)
  | 0, _ => none
  | _ + 1, [] => none
  | fuel + 1, c :: cs =>
    if c = quote then some ([], cs)
    else (readChar (c :: cs)).bind (fun r =>
      (readString fuel r.2).map (fun t => (r.1 :: t.1, t.2)))

/-- The digits of an integer: a zero alone, or all there are. -/
def readDigits : List Char → Option (ℕ × List Char)
  | [] => none
  | c :: cs =>
    if c = '0' then some (0, cs)
    else if c.isDigit then
      some (Nat.ofDigitChars 10 (c :: cs.takeWhile Char.isDigit) 0, cs.dropWhile Char.isDigit)
    else none

/-- A number from its whole part on: an integer if there is neither a fraction nor an
exponent. -/
def readFrom (negative : Bool) (n : ℕ) (cs : List Char) : Json × List Char :=
  let fraction := Double.scanFraction cs
  let exponent := Double.scanExponent fraction.2
  if fraction.1 = [] ∧ exponent.1 = none then (.num (if negative then -n else n), exponent.2)
  else (.float (.ofDecimal negative (Nat.ofDigitChars 10 fraction.1 n)
    (exponent.1.getD 0 - fraction.1.length)), exponent.2)

/-- **A number**, or a minus sign before what is infinite. -/
def readNumber : List Char → Option (Json × List Char)
  | [] => none
  | c :: cs =>
    if c = '-' then
      if cs.take 8 = infinity then some (.float (.infinite true), cs.drop 8)
      else (readDigits cs).map (fun r => readFrom true r.1 r.2)
    else (readDigits (c :: cs)).map (fun r => readFrom false r.1 r.2)

/-- The three words, and the two that JSON does not have. -/
def readWord : List Char → Option (Json × List Char)
  | 'n' :: 'u' :: 'l' :: 'l' :: cs => some (.null, cs)
  | 't' :: 'r' :: 'u' :: 'e' :: cs => some (.bool true, cs)
  | 'f' :: 'a' :: 'l' :: 's' :: 'e' :: cs => some (.bool false, cs)
  | 'N' :: 'a' :: 'N' :: cs => some (.float .nan, cs)
  | 'I' :: 'n' :: 'f' :: 'i' :: 'n' :: 'i' :: 't' :: 'y' :: cs => some (.float (.infinite false), cs)
  | _ => none

mutual
/-- A value at the start of a text, and what follows it. The fuel bounds the depth
and the length. -/
def read : ℕ → List Char → Option (Json × List Char)
  | 0, _ => none
  | fuel + 1, cs =>
    match skipBlanks cs with
    | [] => none
    | c :: rest =>
      if c = quote then
        (readString fuel rest).map (fun r => (.str (String.ofList r.1), r.2))
      else if c = '[' then
        match skipBlanks rest with
        | ']' :: rest => some (.arr [], rest)
        | rest => (readItems fuel rest).map (fun r => (.arr r.1, r.2))
      else if c = openBrace then
        match skipBlanks rest with
        | [] => none
        | d :: rest =>
          if d = closeBrace then some (.obj [], rest)
          else (readMembers fuel (d :: rest)).map (fun r => (.obj r.1, r.2))
      else if c = '-' ∨ c.isDigit = true then readNumber (c :: rest)
      else readWord (c :: rest)

/-- The items of an array up to its bracket. -/
def readItems : ℕ → List Char → Option (List Json × List Char)
  | 0, _ => none
  | fuel + 1, cs =>
    (read fuel cs).bind (fun r =>
      match skipBlanks r.2 with
      | ',' :: rest => (readItems fuel rest).map (fun t => (r.1 :: t.1, t.2))
      | ']' :: rest => some ([r.1], rest)
      | _ => none)

/-- The members of an object up to its brace. -/
def readMembers : ℕ → List Char → Option (List (String × Json) × List Char)
  | 0, _ => none
  | fuel + 1, cs =>
    match skipBlanks cs with
    | [] => none
    | q :: cs =>
      if q = quote then
        (readString fuel cs).bind (fun k =>
          match skipBlanks k.2 with
          | ':' :: rest =>
            (read fuel rest).bind (fun r =>
              match skipBlanks r.2 with
              | [] => none
              | d :: rest =>
                if d = ',' then
                  (readMembers fuel rest).map (fun t => ((String.ofList k.1, r.1) :: t.1, t.2))
                else if d = closeBrace then some ([(String.ofList k.1, r.1)], rest)
                else none)
          | _ => none)
      else none
end

/-- `json.loads`, `none` where it raises. -/
def loads (text : String) : Option Json :=
  (read (text.toList.length + 1) text.toList).bind (fun r =>
    if skipBlanks r.2 = [] then some r.1 else none)

/-! ## Reading back what was written -/

open Double (Ends)

/-- A character that is no part of a number ends it. -/
theorem ends_cons {c : Char} {rest : List Char}
    (h : c.isDigit = false ∧ c ≠ '.' ∧ c ≠ 'e' ∧ c ≠ 'E') : Ends (c :: rest) := by
  intro d hd
  cases hd
  exact h

/-- Four digits are read as they were written. -/
theorem readHex4_hex4 {n : ℕ} (h : n < 32) (cs : List Char) :
    readHex4 (hex4 n ++ cs) = some (n, cs) := by
  have hhex : ∀ n < 32, hexValue4 (Nat.digitChar (n / 4096 % 16)) (Nat.digitChar (n / 256 % 16))
      (Nat.digitChar (n / 16 % 16)) (Nat.digitChar (n % 16)) = some n := by decide
  show (hexValue4 _ _ _ _).map _ = _
  rw [hhex n h]
  rfl

/-- A character is read back from its escape. -/
theorem readChar_escape (c : Char) (cs : List Char) :
    readChar (escape c ++ cs) = some (c, cs) := by
  have hof : ∀ n, c.toNat = n → c = Char.ofNat n := fun n h => by rw [← h, Char.ofNat_toNat]
  unfold escape
  split
  next h => subst h; rfl
  next =>
    split
    next h => subst h; rfl
    next hbackslash =>
      -- the five short escapes, each of one character
      split
      next h => rw [hof 8 h]; rfl
      next =>
        split
        next h => rw [hof 9 h]; rfl
        next =>
          split
          next h => rw [hof 10 h]; rfl
          next =>
            split
            next h => rw [hof 12 h]; rfl
            next =>
              split
              next h => rw [hof 13 h]; rfl
              next =>
                split
                next hlt =>
                  show (readHex4 (hex4 c.toNat ++ cs)).map _ = _
                  rw [readHex4_hex4 hlt, Option.map_some, if_pos (.inl (by omega)),
                    Char.ofNat_toNat]
                next hge =>
                  rw [List.singleton_append, readChar, if_neg hbackslash, if_neg hge]

/-- An escape does not start with a quote, and is not empty. -/
theorem escape_eq_cons (c : Char) : ∃ d ds, escape c = d :: ds ∧ d ≠ quote := by
  unfold escape
  split
  next => exact ⟨_, _, rfl, by decide⟩
  next hquote =>
    split_ifs
    all_goals first
      | exact ⟨backslash, _, rfl, by decide⟩
      | exact ⟨c, [], rfl, hquote⟩

/-- **A text is read as it was written**, up to the quote that ends it. By induction on its
characters. -/
theorem readString_flatMap (s rest : List Char) {fuel : ℕ}
    (h : (s.flatMap escape).length < fuel) :
    readString fuel (s.flatMap escape ++ quote :: rest) = some (s, rest) := by
  induction s generalizing fuel with
  | nil =>
    cases fuel with
    | zero => omega
    | succ fuel => rfl
  | cons c s ih =>
    obtain ⟨d, ds, hd, hne⟩ := escape_eq_cons c
    rw [List.flatMap_cons, List.length_append] at h
    have hlen : (escape c).length = ds.length + 1 := by rw [hd, List.length_cons]
    cases fuel with
    | zero => omega
    | succ fuel =>
      have hchar := readChar_escape c (s.flatMap escape ++ quote :: rest)
      rw [List.flatMap_cons, List.append_assoc]
      rw [hd, List.cons_append] at hchar ⊢
      rw [readString, if_neg hne, hchar, Option.bind_some, ih (by omega)]
      rfl

/-- The digits of a number start with a zero only if that is all of it. -/
theorem toDigits_cons (n : ℕ) :
    ∃ c cs, Nat.toDigits 10 n = c :: cs ∧ c.isDigit = true ∧ (c = '0' → n = 0 ∧ cs = []) := by
  induction n using Nat.strong_induction_on with
  | _ n ih =>
    by_cases hn : n < 10
    · refine ⟨n.digitChar, [], Nat.toDigits_of_lt_base hn, ?_⟩
      have hall : ∀ n < 10, n.digitChar.isDigit = true ∧ (n.digitChar = '0' → n = 0) := by
        decide
      exact ⟨(hall n hn).1, fun h => ⟨(hall n hn).2 h, rfl⟩⟩
    · obtain ⟨c, cs, hcs, hdigit, hzero⟩ := ih (n / 10) (by omega)
      refine ⟨c, cs ++ [(n % 10).digitChar], ?_, hdigit, fun h => ?_⟩
      · rw [Nat.toDigits_of_base_le (by decide) (by omega), hcs, List.cons_append]
      · have := (hzero h).1
        omega

/-- **A natural number is read back** from its digits. -/
theorem readDigits_toDigits (n : ℕ) {rest : List Char}
    (hrest : ∀ c ∈ rest.head?, c.isDigit = false) :
    readDigits (Nat.toDigits 10 n ++ rest) = some (n, rest) := by
  obtain ⟨c, cs, hcs, hdigit, hzero⟩ := toDigits_cons n
  have hall : ∀ d ∈ cs, d.isDigit = true := fun d hd =>
    Nat.isDigit_of_mem_toDigits (b := 10) (n := n) (by decide) (by decide)
      (hcs ▸ List.mem_cons_of_mem c hd)
  rw [hcs, List.cons_append, readDigits]
  split
  next h =>
    obtain ⟨hn, hnil⟩ := hzero h
    rw [hn, hnil, List.nil_append]
  next =>
    obtain ⟨htake, hdrop⟩ := Double.takeWhile_isDigit hall hrest
    rw [htake, hdrop, ← hcs, Nat.ofDigitChars_ten_toDigits]

/-- The digits of a number start with one. -/
theorem toDigits_append_eq_cons (n : ℕ) (rest : List Char) :
    ∃ c cs, Nat.toDigits 10 n ++ rest = c :: cs ∧ c.isDigit = true := by
  obtain ⟨c, cs, hcs, hdigit, _⟩ := toDigits_cons n
  exact ⟨c, cs ++ rest, by rw [hcs, List.cons_append], hdigit⟩

/-- A digit is no character that is none. -/
theorem ne_of_isDigit {c d : Char} (hc : c.isDigit = true) (hd : d.isDigit = false) : c ≠ d := by
  rintro rfl
  rw [hd] at hc
  cases hc

/-- **A number is read from its whole part on**, after its sign. -/
theorem readNumber_toDigits (negative : Bool) (n : ℕ) {rest : List Char}
    (hrest : ∀ c ∈ rest.head?, c.isDigit = false) :
    readNumber (sign negative ++ (Nat.toDigits 10 n ++ rest))
      = some (readFrom negative n rest) := by
  have hread := readDigits_toDigits n hrest
  obtain ⟨c, cs, hcs, hdigit⟩ := toDigits_append_eq_cons n rest
  rw [hcs] at hread ⊢
  cases negative with
  | false =>
    show readNumber (c :: cs) = _
    rw [readNumber, if_neg (ne_of_isDigit hdigit rfl), hread]
    rfl
  | true =>
    have hword : (c :: cs).take 8 ≠ infinity := by
      intro h
      have hhead : c = 'I' := List.head_eq_of_cons_eq h
      exact ne_of_isDigit hdigit rfl hhead
    show readNumber ('-' :: (c :: cs)) = _
    rw [readNumber, if_pos rfl, if_neg hword, hread]
    rfl

/-- Digits with nothing after them are an integer. -/
theorem readFrom_of_ends (negative : Bool) (n : ℕ) {rest : List Char} (hrest : Ends rest) :
    readFrom negative n rest = (.num (if negative then -n else n), rest) := by
  have hfraction := Double.scanFraction_nil (fun c hc => (hrest c hc).2.1)
  have hexponent := Double.scanExponent_nil (fun c hc => (hrest c hc).2.2)
  unfold readFrom
  rw [hfraction]
  dsimp only
  rw [hexponent]
  exact if_pos ⟨rfl, rfl⟩

/-- **A decimal number is read back.** -/
theorem readFrom_parts (negative : Bool) (d : ℕ) (k : ℤ) {rest : List Char} (hrest : Ends rest) :
    readFrom negative (Double.parts d k).whole ((Double.parts d k).tail ++ rest)
      = (.float (.ofDecimal negative d k), rest) := by
  obtain ⟨hfraction, hexponent⟩ := Double.scan_tail (Double.isDigit_fraction_parts d k) hrest
  have hdecimal := Double.ofDecimal_congr (Double.units_parts d k) negative
  unfold readFrom
  rw [hfraction]
  dsimp only
  rw [hexponent, if_neg (fun h => (Double.fractional_parts d k).elim (· h.1) (· h.2)), ← hdecimal]

/-- **An integer is read as it was written.** -/
theorem readNumber_write (n : ℤ) {rest : List Char} (hrest : Ends rest) :
    readNumber (write (.num n) ++ rest) = some (.num n, rest) := by
  cases n with
  | ofNat n =>
    have hread := readNumber_toDigits false n (fun c hc => (hrest c hc).1)
    rw [readFrom_of_ends false n hrest] at hread
    exact hread
  | negSucc n =>
    have hread := readNumber_toDigits true (n + 1) (fun c hc => (hrest c hc).1)
    rw [readFrom_of_ends true (n + 1) hrest] at hread
    exact hread

/-- **A finite double is read back.** -/
theorem readNumber_writeFloat (negative : Bool) (m : Double.Magnitude) {rest : List Char}
    (hrest : Ends rest) :
    readNumber (writeFloat (.finite negative m) ++ rest)
      = some (.float (.finite negative m), rest) := by
  have hread := readNumber_toDigits negative
    (Double.parts (Double.shortest m.units).1 (Double.shortest m.units).2).whole
    (Double.not_isDigit_tail (Double.parts (Double.shortest m.units).1 (Double.shortest m.units).2)
      hrest)
  rw [readFrom_parts negative _ _ hrest, Double.ofDecimal_shortest] at hread
  rw [← hread]
  unfold writeFloat writeParts
  rw [List.append_assoc, List.append_assoc]

theorem isBlank_of_isDigit {c : Char} (h : c.isDigit = true) : isBlank c = false := by
  by_contra hblank
  have hor : c.toNat = 32 ∨ c.toNat = 9 ∨ c.toNat = 10 ∨ c.toNat = 13 := by
    simp [isBlank] at hblank
    omega
  have hc : c = Char.ofNat c.toNat := (Char.ofNat_toNat c).symm
  rcases hor with hn | hn | hn | hn <;> rw [hc, hn] at h <;> exact absurd h (by decide)

/-- The text of a number starts with its sign or a digit. -/
theorem sign_append_eq_cons (negative : Bool) (n : ℕ) (rest : List Char) :
    ∃ c cs, sign negative ++ (Nat.toDigits 10 n ++ rest) = c :: cs
      ∧ (c = '-' ∨ c.isDigit = true) := by
  cases negative with
  | true => exact ⟨'-', _, rfl, .inl rfl⟩
  | false =>
    obtain ⟨c, cs, hcs, hdigit⟩ := toDigits_append_eq_cons n rest
    exact ⟨c, cs, hcs, .inr hdigit⟩

/-- An integer begins with a digit or a minus sign. -/
theorem writeNum_eq_cons (n : ℤ) :
    ∃ c cs, write (.num n) = c :: cs ∧ (c = '-' ∨ c.isDigit = true) := by
  cases n with
  | ofNat n =>
    obtain ⟨c, cs, hcs, hc⟩ := sign_append_eq_cons false n []
    rw [List.append_nil] at hcs
    exact ⟨c, cs, hcs, hc⟩
  | negSucc n => exact ⟨'-', _, rfl, .inl rfl⟩

theorem writeFinite_eq_cons (negative : Bool) (m : Double.Magnitude) :
    ∃ c cs, writeFloat (.finite negative m) = c :: cs ∧ (c = '-' ∨ c.isDigit = true) :=
  sign_append_eq_cons negative _ _

/-- A value starts with a character that is neither blank nor a closing bracket. -/
theorem write_eq_cons (v : Json) :
    ∃ c cs, write v = c :: cs ∧ isBlank c = false ∧ c ≠ ']' := by
  have hstring : ∀ s, ∃ c cs, writeString s = c :: cs ∧ isBlank c = false ∧ c ≠ ']' :=
    fun s => ⟨quote, _, rfl, by decide, by decide⟩
  have hnumber : ∀ {c : Char}, c = '-' ∨ c.isDigit = true → isBlank c = false ∧ c ≠ ']' := by
    rintro c (rfl | hdigit)
    · exact ⟨rfl, by decide⟩
    · exact ⟨isBlank_of_isDigit hdigit, ne_of_isDigit hdigit rfl⟩
  cases v with
  | null => exact ⟨_, _, rfl, by decide, by decide⟩
  | bool b => cases b <;> exact ⟨_, _, rfl, by decide, by decide⟩
  | num n =>
    obtain ⟨c, cs, hcs, hc⟩ := writeNum_eq_cons n
    exact ⟨c, cs, hcs, hnumber hc⟩
  | float x =>
    cases x with
    | finite negative m =>
      obtain ⟨c, cs, hcs, hc⟩ := writeFinite_eq_cons negative m
      exact ⟨c, cs, hcs, hnumber hc⟩
    | infinite negative => cases negative <;> exact ⟨_, _, rfl, by decide, by decide⟩
    | nan => exact ⟨_, _, rfl, by decide, by decide⟩
  | str s => exact hstring s
  | other text => exact hstring text
  | arr items => exact ⟨_, _, rfl, by decide, by decide⟩
  | obj members => exact ⟨_, _, rfl, by decide, by decide⟩

/-- Nothing is skipped before what is no blank. -/
theorem skipBlanks_cons {c : Char} (h : isBlank c = false) (cs : List Char) :
    skipBlanks (c :: cs) = c :: cs :=
  List.dropWhile_cons_of_neg (by rw [h]; exact Bool.false_ne_true)

theorem read_blank (fuel : ℕ) (cs : List Char) : read fuel (' ' :: cs) = read fuel cs := by
  cases fuel <;> rfl

theorem readItems_blank (fuel : ℕ) (cs : List Char) :
    readItems fuel (' ' :: cs) = readItems fuel cs := by
  cases fuel with
  | zero => rfl
  | succ fuel => rw [readItems, readItems, read_blank]

theorem readMembers_blank (fuel : ℕ) (cs : List Char) :
    readMembers fuel (' ' :: cs) = readMembers fuel cs := by
  cases fuel <;> rfl

theorem writeString_eq (s : String) (rest : List Char) :
    writeString s ++ rest = quote :: (s.toList.flatMap escape ++ quote :: rest) := by
  simp [writeString]

theorem length_writeString (s : String) :
    (writeString s).length = (s.toList.flatMap escape).length + 2 := by
  simp [writeString]

/-- **A string is read back.** -/
theorem read_writeString (s : String) (fuel : ℕ) (rest : List Char)
    (h : (writeString s).length < fuel + 1) :
    read (fuel + 1) (writeString s ++ rest) = some (.str s, rest) := by
  rw [length_writeString] at h
  rw [writeString_eq, read, skipBlanks_cons (by decide)]
  dsimp only
  rw [if_pos rfl, readString_flatMap _ _ (by omega), Option.map_some, String.ofList_toList]

/-- A text that starts like a number is read as one. -/
theorem read_eq_readNumber (fuel : ℕ) {c : Char} (cs : List Char)
    (hc : c = '-' ∨ c.isDigit = true) : read (fuel + 1) (c :: cs) = readNumber (c :: cs) := by
  have hblank : isBlank c = false := by
    rcases hc with rfl | hdigit
    · rfl
    · exact isBlank_of_isDigit hdigit
  have hne : ∀ d : Char, d ≠ '-' → d.isDigit = false → c ≠ d := by
    intro d hd hnot
    rcases hc with rfl | hdigit
    · exact hd.symm
    · exact ne_of_isDigit hdigit hnot
  rw [read, skipBlanks_cons hblank]
  dsimp only
  rw [if_neg (hne quote (by decide) (by decide)), if_neg (hne '[' (by decide) (by decide)),
    if_neg (hne openBrace (by decide) (by decide)), if_pos hc]

/-- A key is read back, and the reader goes on after it. -/
theorem readMembers_writeString (k : String) (fuel : ℕ) (rest : List Char)
    (h : (writeString k).length < fuel + 1) :
    readMembers (fuel + 1) (writeString k ++ ':' :: rest)
      = (read fuel rest).bind (fun r =>
          match skipBlanks r.2 with
          | [] => none
          | d :: rest =>
            if d = ',' then
              (readMembers fuel rest).map (fun t => ((k, r.1) :: t.1, t.2))
            else if d = closeBrace then some ([(k, r.1)], rest)
            else none) := by
  rw [length_writeString] at h
  rw [writeString_eq, readMembers, skipBlanks_cons (by decide)]
  dsimp only
  rw [if_pos rfl, readString_flatMap _ _ (by omega), Option.bind_some,
    skipBlanks_cons (by decide)]
  dsimp only
  rw [String.ofList_toList]
  rfl

/-- Items do not begin with a blank, nor with the bracket that ends them. -/
theorem writeItems_eq_cons (v : Json) (items : List Json) :
    ∃ c cs, writeItems (v :: items) = c :: cs ∧ isBlank c = false ∧ c ≠ ']' := by
  obtain ⟨c, cs, hcs, hblank, hbracket⟩ := write_eq_cons v
  cases items with
  | nil => exact ⟨c, cs, hcs, hblank, hbracket⟩
  | cons w items =>
    refine ⟨c, cs ++ ',' :: ' ' :: writeItems (w :: items), ?_, hblank, hbracket⟩
    rw [writeItems, hcs, List.cons_append]

theorem writeMembers_eq_cons (m : String × Json) (members : List (String × Json)) :
    ∃ cs, writeMembers (m :: members) = quote :: cs := by
  obtain ⟨k, v⟩ := m
  cases members with
  | nil => exact ⟨_, by rw [writeMembers, writeString_eq]⟩
  | cons m members => exact ⟨_, by rw [writeMembers, List.append_assoc, writeString_eq]⟩

/-! The induction over a value, its items and its members. -/

mutual
/-- **What was written is read**, in normal form. By induction on the value, with those for items
and members. -/
theorem read_write : ∀ (v : Json) (fuel : ℕ) (rest : List Char), (write v).length < fuel →
    Ends rest → read fuel (write v ++ rest) = some (normal v, rest)
  | _, 0, _, h, _ => absurd h (by omega)
  | .null, fuel + 1, rest, _, _ => rfl
  | .bool true, fuel + 1, rest, _, _ => rfl
  | .bool false, fuel + 1, rest, _, _ => rfl
  | .num n, fuel + 1, rest, _, hrest => by
    obtain ⟨c, cs, hcs, hc⟩ := writeNum_eq_cons n
    have hnumber := readNumber_write n hrest
    rw [hcs, List.cons_append] at hnumber ⊢
    exact (read_eq_readNumber fuel _ hc).trans hnumber
  | .float (.finite negative m), fuel + 1, rest, _, hrest => by
    obtain ⟨c, cs, hcs, hc⟩ := writeFinite_eq_cons negative m
    have hnumber := readNumber_writeFloat negative m hrest
    show read (fuel + 1) (writeFloat (.finite negative m) ++ rest) = _
    rw [hcs, List.cons_append] at hnumber ⊢
    exact (read_eq_readNumber fuel _ hc).trans hnumber
  | .float (.infinite true), fuel + 1, rest, _, _ => rfl
  | .float (.infinite false), fuel + 1, rest, _, _ => rfl
  | .float .nan, fuel + 1, rest, _, _ => rfl
  | .str s, fuel + 1, rest, h, _ => read_writeString s fuel rest h
  | .other text, fuel + 1, rest, h, _ => read_writeString text fuel rest h
  | .arr [], fuel + 1, rest, _, _ => rfl
  | .arr (v :: items), fuel + 1, rest, h, _ => by
    have hlen : (writeItems (v :: items)).length + 1 < fuel := by
      simp only [write, List.length_cons, List.length_append] at h
      omega
    have hitems := readItems_writeItems v items fuel rest hlen
    obtain ⟨c, cs, hcs, hblank, hbracket⟩ := writeItems_eq_cons v items
    show read (fuel + 1) ('[' :: (writeItems (v :: items) ++ [']']) ++ rest) = _
    rw [List.cons_append, List.append_assoc, List.singleton_append, read,
      skipBlanks_cons (by decide)]
    dsimp only
    rw [if_neg (by decide), if_pos rfl]
    rw [hcs, List.cons_append] at hitems ⊢
    rw [skipBlanks_cons hblank]
    split
    next heq =>
      injection heq with heq _
      exact absurd heq hbracket
    next => rw [hitems]; rfl
  | .obj [], fuel + 1, rest, _, _ => rfl
  | .obj (m :: members), fuel + 1, rest, h, _ => by
    have hlen : (writeMembers (m :: members)).length + 1 < fuel := by
      simp only [write, List.length_cons, List.length_append] at h
      omega
    have hmembers := readMembers_writeMembers m members fuel rest hlen
    obtain ⟨cs, hcs⟩ := writeMembers_eq_cons m members
    show read (fuel + 1) (openBrace :: (writeMembers (m :: members) ++ [closeBrace]) ++ rest) = _
    rw [List.cons_append, List.append_assoc, List.singleton_append, read,
      skipBlanks_cons (by decide)]
    dsimp only
    rw [if_neg (by decide), if_neg (by decide), if_pos rfl]
    rw [hcs, List.cons_append] at hmembers ⊢
    rw [skipBlanks_cons (by decide)]
    dsimp only
    rw [if_neg (by decide), hmembers]
    rfl

theorem readItems_writeItems : ∀ (v : Json) (items : List Json) (fuel : ℕ) (rest : List Char),
    (writeItems (v :: items)).length + 1 < fuel →
    readItems fuel (writeItems (v :: items) ++ ']' :: rest)
      = some (normalItems (v :: items), rest)
  | _, _, 0, _, h => absurd h (by omega)
  | v, [], fuel + 1, rest, h => by
    have hlen : (write v).length < fuel := by
      simp only [writeItems] at h
      omega
    rw [readItems, writeItems, read_write v fuel _ hlen (ends_cons (by decide)),
      Option.bind_some]
    rfl
  | v, w :: items, fuel + 1, rest, h => by
    simp only [writeItems, List.length_cons, List.length_append] at h
    rw [readItems, writeItems, List.append_assoc, List.cons_append,
      read_write v fuel _ (by omega) (ends_cons (by decide)), Option.bind_some,
      skipBlanks_cons (by decide)]
    show (readItems fuel (' ' :: (writeItems (w :: items) ++ ']' :: rest))).map _ = _
    rw [readItems_blank, readItems_writeItems w items fuel rest (by omega)]
    rfl

theorem readMembers_writeMembers : ∀ (m : String × Json) (members : List (String × Json))
    (fuel : ℕ) (rest : List Char), (writeMembers (m :: members)).length + 1 < fuel →
    readMembers fuel (writeMembers (m :: members) ++ closeBrace :: rest)
      = some (normalMembers (m :: members), rest)
  | _, _, 0, _, h => absurd h (by omega)
  | (k, v), [], fuel + 1, rest, h => by
    simp only [writeMembers, List.length_cons, List.length_append] at h
    rw [writeMembers, List.append_assoc, List.cons_append,
      readMembers_writeString k fuel _ (by omega), List.cons_append, read_blank,
      read_write v fuel _ (by omega) (ends_cons (by decide)), Option.bind_some,
      skipBlanks_cons (by decide)]
    dsimp only
    rw [if_neg (by decide), if_pos rfl]
    rfl
  | (k, v), m :: members, fuel + 1, rest, h => by
    simp only [writeMembers, List.length_cons, List.length_append] at h
    rw [writeMembers, List.append_assoc, List.append_assoc, List.cons_append,
      readMembers_writeString k fuel _ (by omega), List.cons_append, List.cons_append, read_blank,
      read_write v fuel _ (by omega) (ends_cons (by decide)), Option.bind_some,
      skipBlanks_cons (by decide)]
    dsimp only
    rw [if_pos rfl, List.cons_append, readMembers_blank,
      readMembers_writeMembers m members fuel rest (by omega)]
    rfl
end

/-! ## The normal form -/

mutual
/-- **A value in normal form is written in the same way.** -/
theorem write_normal : ∀ v : Json, write (normal v) = write v
  | .null | .bool _ | .num _ | .float _ | .str _ | .other _ => rfl
  | .arr items => by rw [normal, write, write, writeItems_normal items]
  | .obj members => by rw [normal, write, write, writeMembers_normal members]

theorem writeItems_normal : ∀ items : List Json, writeItems (normalItems items) = writeItems items
  | [] => rfl
  | [v] => write_normal v
  | v :: w :: items => by
    have hitems := writeItems_normal (w :: items)
    rw [normalItems, normalItems] at *
    rw [writeItems, writeItems, write_normal v, hitems]

theorem writeMembers_normal : ∀ members : List (String × Json),
    writeMembers (normalMembers members) = writeMembers members
  | [] => rfl
  | [(k, v)] => by rw [normalMembers, normalMembers, writeMembers, writeMembers, write_normal v]
  | (k, v) :: (l, w) :: members => by
    have hmembers := writeMembers_normal ((l, w) :: members)
    rw [normalMembers, normalMembers] at *
    rw [writeMembers, writeMembers, write_normal v, hmembers]
end

mutual
/-- **A JSON value is in normal form.** -/
theorem normal_of_isJson : ∀ {v : Json}, isJson v = true → normal v = v
  | .null, _ | .bool _, _ | .num _, _ | .float _, _ | .str _, _ => rfl
  | .other _, h => nomatch h
  | .arr _, h => congrArg arr (normalItems_of_areJson h)
  | .obj _, h => congrArg obj (normalMembers_of_areJson h)

theorem normalItems_of_areJson : ∀ {items : List Json}, areJson items = true →
    normalItems items = items
  | [], _ => rfl
  | v :: items, h => by
    obtain ⟨hv, hitems⟩ := Bool.and_eq_true_iff.1 h
    rw [normalItems, normal_of_isJson hv, normalItems_of_areJson hitems]

theorem normalMembers_of_areJson : ∀ {members : List (String × Json)},
    areJsonMembers members = true → normalMembers members = members
  | [], _ => rfl
  | (k, v) :: members, h => by
    obtain ⟨hv, hmembers⟩ := Bool.and_eq_true_iff.1 h
    rw [normalMembers, normal_of_isJson hv, normalMembers_of_areJson hmembers]
end

/-- **What was written is read back**, in normal form. -/
theorem loads_dumps (v : Json) : loads (dumps v) = some (normal v) := by
  have hread := read_write v ((write v).length + 1) [] (by omega) (fun _ h => by cases h)
  rw [List.append_nil] at hread
  unfold loads dumps
  rw [String.toList_ofList, hread]
  rfl

/-- **Two values have one text** if they are the same when they are read back, and only
then. -/
theorem dumps_eq_dumps_iff {v w : Json} : dumps v = dumps w ↔ normal v = normal w := by
  constructor
  · intro h
    have hloads := loads_dumps v
    rw [h, loads_dumps] at hloads
    exact (Option.some.inj hloads).symm
  · intro h
    unfold dumps
    rw [← write_normal v, h, write_normal w]

/-- The normal form of a normal form is itself. -/
theorem normal_normal (v : Json) : normal (normal v) = normal v :=
  dumps_eq_dumps_iff.1 (congrArg String.ofList (write_normal v))

/-! ## What is read is in normal form -/

/-- A member of an object in normal form is in normal form. -/
theorem normal_of_find {key : String} {v : Json} : ∀ {members : List (String × Json)},
    normalMembers members = members → find key members = some v → v.normal = v
  | (k, w) :: members, hnormal, h => by
    obtain ⟨hw, hmembers⟩ := List.cons.inj hnormal
    rw [find] at h
    split at h
    next u hu =>
      cases h
      exact normal_of_find hmembers hu
    next =>
      split at h
      next =>
        cases h
        exact (Prod.mk.inj hw).2
      next => cases h

/-- A number that was read is in normal form. -/
theorem normal_of_readNumber {cs rest : List Char} {v : Json}
    (h : readNumber cs = some (v, rest)) : v.normal = v := by
  have hfrom : ∀ negative n cs, (readFrom negative n cs).1.normal = (readFrom negative n cs).1 := by
    intro negative n cs
    unfold readFrom
    dsimp only
    split <;> rfl
  cases cs with
  | nil => cases h
  | cons c cs =>
    rw [readNumber] at h
    split at h
    next =>
      split at h
      next =>
        cases h
        rfl
      next =>
        obtain ⟨r, _, heq⟩ := Option.map_eq_some_iff.1 h
        exact (Prod.mk.inj heq).1 ▸ hfrom true r.1 r.2
    next =>
      obtain ⟨r, _, heq⟩ := Option.map_eq_some_iff.1 h
      exact (Prod.mk.inj heq).1 ▸ hfrom false r.1 r.2

theorem normal_of_readWord {cs rest : List Char} {v : Json}
    (h : readWord cs = some (v, rest)) : v.normal = v := by
  unfold readWord at h
  split at h <;> cases h <;> rfl

mutual
/-- **Whatever was read is in normal form.** By induction on the fuel. -/
theorem normal_of_read : ∀ {fuel : ℕ} {cs rest : List Char} {v : Json},
    read fuel cs = some (v, rest) → v.normal = v
  | 0, _, _, _, h => nomatch h
  | fuel + 1, cs, rest, v, h => by
    rw [read] at h
    split at h
    next => cases h
    next c cs' hblanks =>
      split_ifs at h
      next =>
        obtain ⟨t, _, heq⟩ := Option.map_eq_some_iff.1 h
        rw [← (Prod.mk.inj heq).1]
        rfl
      next =>
        split at h
        next =>
          cases h
          rfl
        next =>
          obtain ⟨t, ht, heq⟩ := Option.map_eq_some_iff.1 h
          rw [← (Prod.mk.inj heq).1, normal, normalItems_of_readItems ht]
      next =>
        split at h
        next => cases h
        next =>
          split at h
          next =>
            cases h
            rfl
          next =>
            obtain ⟨t, ht, heq⟩ := Option.map_eq_some_iff.1 h
            rw [← (Prod.mk.inj heq).1, normal, normalMembers_of_readMembers ht]
      next => exact normal_of_readNumber h
      next => exact normal_of_readWord h

theorem normalItems_of_readItems : ∀ {fuel : ℕ} {cs rest : List Char} {items : List Json},
    readItems fuel cs = some (items, rest) → normalItems items = items
  | 0, _, _, _, h => nomatch h
  | fuel + 1, cs, rest, items, h => by
    rw [readItems] at h
    obtain ⟨r, hr, h⟩ := Option.bind_eq_some_iff.1 h
    have hitem := normal_of_read hr
    split at h
    next =>
      obtain ⟨t, ht, heq⟩ := Option.map_eq_some_iff.1 h
      rw [← (Prod.mk.inj heq).1, normalItems, hitem, normalItems_of_readItems ht]
    next =>
      rw [← (Prod.mk.inj (Option.some.inj h)).1, normalItems, hitem]
      rfl
    next => cases h

theorem normalMembers_of_readMembers : ∀ {fuel : ℕ} {cs rest : List Char}
    {members : List (String × Json)},
    readMembers fuel cs = some (members, rest) → normalMembers members = members
  | 0, _, _, _, h => nomatch h
  | fuel + 1, cs, rest, members, h => by
    rw [readMembers] at h
    split at h
    next => cases h
    next q cs' _ =>
      split at h
      next =>
        obtain ⟨k, _, h⟩ := Option.bind_eq_some_iff.1 h
        split at h
        next =>
          obtain ⟨r, hr, h⟩ := Option.bind_eq_some_iff.1 h
          have hvalue := normal_of_read hr
          split at h
          next => cases h
          next =>
            split_ifs at h
            next =>
              obtain ⟨t, ht, heq⟩ := Option.map_eq_some_iff.1 h
              rw [← (Prod.mk.inj heq).1, normalMembers, hvalue, normalMembers_of_readMembers ht]
            next =>
              rw [← (Prod.mk.inj (Option.some.inj h)).1, normalMembers, hvalue]
              rfl
        next => cases h
      next => cases h
end

/-- **What is read is a value in normal form.** -/
theorem normal_of_loads {text : String} {v : Json} (h : loads text = some v) : v.normal = v := by
  unfold loads at h
  obtain ⟨⟨w, rest⟩, hr, h⟩ := Option.bind_eq_some_iff.1 h
  split at h
  next =>
    cases h
    exact normal_of_read hr
  next => cases h

/-! ## The length of what is read -/

theorem length_skipBlanks_le (cs : List Char) : (skipBlanks cs).length ≤ cs.length :=
  (List.dropWhile_suffix _).length_le

/-- Reading four digits makes it shorter. -/
theorem length_readHex4 {cs rest : List Char} {n : ℕ} (h : readHex4 cs = some (n, rest)) :
    rest.length < cs.length := by
  unfold readHex4 at h
  split at h
  next =>
    obtain ⟨_, _, heq⟩ := Option.map_eq_some_iff.1 h
    cases heq
    simp only [List.length_cons]
    omega
  next => cases h

theorem length_readLowSurrogate {cs rest : List Char} {n : ℕ}
    (h : readLowSurrogate cs = some (n, rest)) : rest.length < cs.length := by
  unfold readLowSurrogate at h
  split at h
  next =>
    split at h
    next =>
      obtain ⟨r, hr, h⟩ := Option.bind_eq_some_iff.1 h
      split at h
      next =>
        cases h
        have hlen := length_readHex4 hr
        simp only [List.length_cons]
        omega
      next => cases h
    next => cases h
  next => cases h

theorem length_readEscape {cs rest : List Char} {d : Char}
    (h : readEscape cs = some (d, rest)) : rest.length < cs.length := by
  cases cs with
  | nil => cases h
  | cons c cs =>
    rw [readEscape] at h
    split at h
    next =>
      obtain ⟨⟨n, r⟩, hr, heq⟩ := Option.map_eq_some_iff.1 h
      have hlen := length_readHex4 hr
      rw [List.length_cons]
      dsimp only at heq
      split at heq
      next =>
        obtain ⟨_, rfl⟩ := Prod.mk.inj heq
        omega
      next =>
        split at heq
        next t ht =>
          obtain ⟨_, rfl⟩ := Prod.mk.inj heq
          split at ht
          next =>
            have hlow := length_readLowSurrogate ht
            omega
          next => cases ht
        next =>
          obtain ⟨_, rfl⟩ := Prod.mk.inj heq
          omega
    next =>
      obtain ⟨_, _, heq⟩ := Option.map_eq_some_iff.1 h
      obtain ⟨_, rfl⟩ := Prod.mk.inj heq
      exact Nat.lt_succ_self _

/-- A character takes at least one of the text. -/
theorem length_readChar {cs rest : List Char} {d : Char} (h : readChar cs = some (d, rest)) :
    rest.length < cs.length := by
  cases cs with
  | nil => cases h
  | cons c cs =>
    rw [readChar] at h
    split at h
    next => exact (length_readEscape h).trans (Nat.lt_succ_self _)
    next =>
      split at h
      next => cases h
      next =>
        cases h
        exact Nat.lt_succ_self _

/-- **A text that was read** is shorter than what it was read from: the quote at its end is no part
of it. -/
theorem length_readString : ∀ {fuel : ℕ} {cs out rest : List Char},
    readString fuel cs = some (out, rest) → out.length < cs.length
  | 0, _, _, _, h => nomatch h
  | _ + 1, [], _, _, h => nomatch h
  | fuel + 1, c :: cs, out, rest, h => by
    rw [readString] at h
    split at h
    next =>
      cases h
      exact Nat.succ_pos _
    next =>
      obtain ⟨r, hr, h⟩ := Option.bind_eq_some_iff.1 h
      obtain ⟨t, ht, heq⟩ := Option.map_eq_some_iff.1 h
      cases heq
      have hchar := length_readChar hr
      have hstring := length_readString ht
      simp only [List.length_cons] at hchar ⊢
      omega

theorem ne_str_of_readNumber {cs rest : List Char} {v : Json}
    (h : readNumber cs = some (v, rest)) (s : String) : v ≠ .str s := by
  have hfrom : ∀ negative n cs, (readFrom negative n cs).1 ≠ .str s := by
    intro negative n cs
    unfold readFrom
    dsimp only
    split <;> exact nofun
  cases cs with
  | nil => cases h
  | cons c cs =>
    rw [readNumber] at h
    split at h
    next =>
      split at h
      next =>
        cases h
        exact nofun
      next =>
        obtain ⟨r, _, heq⟩ := Option.map_eq_some_iff.1 h
        exact (Prod.mk.inj heq).1 ▸ hfrom true r.1 r.2
    next =>
      obtain ⟨r, _, heq⟩ := Option.map_eq_some_iff.1 h
      exact (Prod.mk.inj heq).1 ▸ hfrom false r.1 r.2

theorem ne_str_of_readWord {cs rest : List Char} {v : Json} (h : readWord cs = some (v, rest))
    (s : String) : v ≠ .str s := by
  rintro rfl
  unfold readWord at h
  split at h <;> cases h

/-- What is read as a string starts with a quote. -/
theorem length_of_read {fuel : ℕ} {cs rest : List Char} {s : String}
    (h : read fuel cs = some (.str s, rest)) : s.toList.length < cs.length := by
  cases fuel with
  | zero => cases h
  | succ fuel =>
    have hskip := length_skipBlanks_le cs
    rw [read] at h
    split at h
    next => cases h
    next c cs' hblanks =>
      rw [hblanks, List.length_cons] at hskip
      split_ifs at h
      next =>
        obtain ⟨t, ht, heq⟩ := Option.map_eq_some_iff.1 h
        have hlen := length_readString ht
        rw [← Json.str.inj (Prod.mk.inj heq).1, String.toList_ofList]
        omega
      next =>
        split at h
        next => cases h
        next =>
          obtain ⟨_, _, heq⟩ := Option.map_eq_some_iff.1 h
          cases heq
      next =>
        split at h
        next => cases h
        next =>
          split at h
          next => cases h
          next =>
            obtain ⟨_, _, heq⟩ := Option.map_eq_some_iff.1 h
            cases heq
      next => exact absurd rfl (ne_str_of_readNumber h s)
      next => exact absurd rfl (ne_str_of_readWord h s)

/-- **A text that says a string is longer than the string.** -/
theorem length_lt_of_loads {text s : String} (h : loads text = some (.str s)) :
    s.toList.length < text.toList.length := by
  unfold loads at h
  obtain ⟨⟨v, rest⟩, hr, h⟩ := Option.bind_eq_some_iff.1 h
  split at h
  next =>
    cases h
    exact length_of_read hr
  next => cases h

end Json

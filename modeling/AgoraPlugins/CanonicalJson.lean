import AgoraPlugins.Json

/-!
# JSON texts without blanks, in ASCII

The text that is made of a value to compare it with others: no blank after a comma or a colon, and
every character that is not in ASCII escaped. What is inside such a text can be told from it: with
the rest the same, two texts are the same only if the strings in one place are
(`Json.asciiString_inj`).

The members of an object are written in the order in which they are given, which for a comparison
is that of their keys.
-/

namespace Json

/-! ## Writing -/

/-- A character inside a string, `ensure_ascii`. One beyond the first plane is written as the two
surrogates that stand for it. -/
def asciiEscape (c : Char) : List Char :=
  if c.toNat < 127 then escape c
  else if c.toNat < 0x10000 then backslash :: 'u' :: hex4 c.toNat
  else
    backslash :: 'u' :: hex4 (0xD800 + (c.toNat - 0x10000) / 1024)
      ++ backslash :: 'u' :: hex4 (0xDC00 + (c.toNat - 0x10000) % 1024)

def asciiString (s : String) : List Char := quote :: s.toList.flatMap asciiEscape ++ [quote]

mutual
def compact : Json → List Char
  | .str s => asciiString s
  | .other text => asciiString text
  | .arr items => '[' :: compactItems items ++ [']']
  | .obj members => openBrace :: compactMembers members ++ [closeBrace]
  | .null => write .null
  | .bool b => write (.bool b)
  | .num n => write (.num n)
  | .float x => write (.float x)

def compactItems : List Json → List Char
  | [] => []
  | [v] => compact v
  | v :: w :: items => compact v ++ ',' :: compactItems (w :: items)

def compactMembers : List (String × Json) → List Char
  | [] => []
  | [(k, v)] => asciiString k ++ ':' :: compact v
  | (k, v) :: m :: members => asciiString k ++ ':' :: compact v ++ ',' :: compactMembers (m :: members)
end

/-- **`json.dumps`** with `ensure_ascii` and without blanks. -/
def dumpsCompact (v : Json) : String := String.ofList (compact v)

/-! ## Telling strings apart -/

theorem hexValue_digitChar : ∀ n < 16, hexValue (Nat.digitChar n) = some n := by decide

theorem readHex4_hex4_of_lt {n : ℕ} (h : n < 65536) (cs : List Char) :
    readHex4 (hex4 n ++ cs) = some (n, cs) := by
  have hvalue : hexValue4 (Nat.digitChar (n / 4096 % 16)) (Nat.digitChar (n / 256 % 16))
      (Nat.digitChar (n / 16 % 16)) (Nat.digitChar (n % 16)) = some n := by
    unfold hexValue4
    rw [hexValue_digitChar _ (Nat.mod_lt _ (by decide)),
      hexValue_digitChar _ (Nat.mod_lt _ (by decide)),
      hexValue_digitChar _ (Nat.mod_lt _ (by decide)),
      hexValue_digitChar _ (Nat.mod_lt _ (by decide))]
    refine congrArg some ?_
    omega
  show (hexValue4 _ _ _ _).map _ = _
  rw [hvalue]
  rfl

/-- A character is no surrogate. -/
theorem toNat_range (c : Char) : c.toNat < 0xD800 ∨ 0xE000 ≤ c.toNat ∧ c.toNat < 0x110000 := by
  rcases c.valid with h | ⟨h₁, h₂⟩
  · exact .inl h
  · exact .inr ⟨h₁, h₂⟩

theorem readLowSurrogate_hex4 {n : ℕ} (hle : 0xDC00 ≤ n) (hlt : n < 0xE000) (cs : List Char) :
    readLowSurrogate (backslash :: 'u' :: (hex4 n ++ cs)) = some (n, cs) := by
  rw [readLowSurrogate, if_pos rfl, readHex4_hex4_of_lt (by omega), Option.bind_some,
    if_pos ⟨hle, hlt⟩]

theorem readChar_hex4 {n : ℕ} (h : n < 65536) (cs : List Char) :
    readChar (backslash :: 'u' :: (hex4 n ++ cs))
      = if n < 0xD800 ∨ 0xE000 ≤ n then some (Char.ofNat n, cs)
        else match if n < 0xDC00 then readLowSurrogate cs else none with
          | some t => some (Char.ofNat (0x10000 + (n - 0xD800) * 1024 + (t.1 - 0xDC00)), t.2)
          | none => some (Char.ofNat 0xFFFD, cs) := by
  rw [readChar, if_pos rfl, readEscape, if_pos rfl, readHex4_hex4_of_lt h, Option.map_some]
  dsimp only
  split_ifs
  · rfl
  · cases readLowSurrogate cs <;> rfl
  · rfl

/-- **A character is read back** from its escape in ASCII. -/
theorem readChar_asciiEscape (c : Char) (cs : List Char) :
    readChar (asciiEscape c ++ cs) = some (c, cs) := by
  have hrange := toNat_range c
  unfold asciiEscape
  split_ifs with hascii hplane
  · exact readChar_escape c cs
  · rw [List.cons_append, List.cons_append, readChar_hex4 hplane, if_pos (by omega),
      Char.ofNat_toNat]
  · have hsum : 0x10000 + (0xD800 + (c.toNat - 0x10000) / 1024 - 0xD800) * 1024
        + (0xDC00 + (c.toNat - 0x10000) % 1024 - 0xDC00) = c.toNat := by omega
    rw [List.append_assoc, List.cons_append, List.cons_append, List.cons_append, List.cons_append,
      readChar_hex4 (by omega), if_neg (by omega), if_pos (by omega),
      readLowSurrogate_hex4 (by omega) (by omega)]
    dsimp only
    rw [hsum, Char.ofNat_toNat]

theorem asciiEscape_append_inj {c d : Char} {cs ds : List Char}
    (h : asciiEscape c ++ cs = asciiEscape d ++ ds) : c = d ∧ cs = ds := by
  have hread := congrArg readChar h
  rw [readChar_asciiEscape, readChar_asciiEscape] at hread
  exact Prod.mk.inj (Option.some.inj hread)

/-- An escape does not start with a quote, and is not empty. -/
theorem asciiEscape_eq_cons (c : Char) : ∃ d ds, asciiEscape c = d :: ds ∧ d ≠ quote := by
  unfold asciiEscape
  split_ifs
  · exact escape_eq_cons c
  · exact ⟨backslash, _, rfl, by decide⟩
  · exact ⟨backslash, _, rfl, by decide⟩

theorem flatMap_asciiEscape_inj :
    ∀ (s t : List Char) (cs ds : List Char),
      s.flatMap asciiEscape ++ quote :: cs = t.flatMap asciiEscape ++ quote :: ds →
      s = t ∧ cs = ds
  | [], [], _, _, h => ⟨rfl, (List.cons.inj h).2⟩
  | [], d :: t, cs, ds, h => by
    obtain ⟨e, es, he, hne⟩ := asciiEscape_eq_cons d
    rw [List.flatMap_cons, he] at h
    exact absurd (List.cons.inj h).1.symm hne
  | c :: s, [], cs, ds, h => by
    obtain ⟨e, es, he, hne⟩ := asciiEscape_eq_cons c
    rw [List.flatMap_cons, he] at h
    exact absurd (List.cons.inj h).1 hne
  | c :: s, d :: t, cs, ds, h => by
    rw [List.flatMap_cons, List.flatMap_cons, List.append_assoc, List.append_assoc] at h
    obtain ⟨hcd, hrest⟩ := asciiEscape_append_inj h
    obtain ⟨hst, hcs⟩ := flatMap_asciiEscape_inj s t cs ds hrest
    exact ⟨by rw [hcd, hst], hcs⟩

/-- **Strings are told apart**, and what follows them. -/
theorem asciiString_append_inj {s t : String} {cs ds : List Char}
    (h : asciiString s ++ cs = asciiString t ++ ds) : s = t ∧ cs = ds := by
  unfold asciiString at h
  simp only [List.cons_append, List.append_assoc, List.cons.injEq, true_and] at h
  obtain ⟨hst, hcs⟩ := flatMap_asciiEscape_inj _ _ _ _ h
  exact ⟨String.toList_inj.1 hst, hcs⟩

theorem asciiString_ne_cons {s : String} {cs : List Char} {d : Char} {ds : List Char}
    (hd : d ≠ quote) (h : asciiString s ++ cs = d :: ds) : False :=
  hd (List.cons.inj h).1.symm

/-- **Lists of strings are told apart.** -/
theorem compactItems_str_inj :
    ∀ (ss ts : List String) (cs ds : List Char),
      compactItems (ss.map Json.str) ++ ']' :: cs = compactItems (ts.map Json.str) ++ ']' :: ds →
      ss = ts ∧ cs = ds
  | [], [], _, _, h => ⟨rfl, (List.cons.inj h).2⟩
  | [], [_], _, _, h => (asciiString_ne_cons (by decide) h.symm).elim
  | [], _ :: _ :: _, _, _, h => by
    simp only [List.map_cons, compactItems, compact, List.append_assoc] at h
    exact (asciiString_ne_cons (by decide) h.symm).elim
  | [_], [], _, _, h => (asciiString_ne_cons (by decide) h).elim
  | _ :: _ :: _, [], _, _, h => by
    simp only [List.map_cons, compactItems, compact, List.append_assoc] at h
    exact (asciiString_ne_cons (by decide) h).elim
  | [s], [t], _, _, h => by
    obtain ⟨hst, hrest⟩ := asciiString_append_inj (s := s) (t := t) h
    exact ⟨by rw [hst], (List.cons.inj hrest).2⟩
  | [s], t :: u :: ts, _, _, h => by
    simp only [List.map_cons, List.map_nil, compactItems, compact, List.append_assoc] at h
    exact absurd (List.cons.inj (asciiString_append_inj h).2).1 (by decide)
  | s :: r :: ss, [t], _, _, h => by
    simp only [List.map_cons, List.map_nil, compactItems, compact, List.append_assoc] at h
    exact absurd (List.cons.inj (asciiString_append_inj h).2).1 (by decide)
  | s :: r :: ss, t :: u :: ts, cs, ds, h => by
    simp only [List.map_cons, compactItems, compact, List.append_assoc] at h
    obtain ⟨hst, hrest⟩ := asciiString_append_inj h
    obtain ⟨hss, hcs⟩ := compactItems_str_inj (r :: ss) (u :: ts) cs ds (List.cons.inj hrest).2
    exact ⟨by rw [hst, hss], hcs⟩

end Json

import AgoraPlugins.SourceIdentity

/-!
# Redacted DSNs

`redact_postgres_dsn` has a way for each form of a DSN. A URI in which `urlparse` finds a password
is put together again without it. In any other text the values are replaced that a pattern finds
after `password` and an equals sign: this is for the keyword form, and it is also where a URI goes
whose port is not read, with its password and nothing for the pattern to find.
-/

open Url

namespace Dsn

/-! ## The pattern -/

/-- **`\s`** in a pattern. -/
def isWhitespace (c : Char) : Bool :=
  (9 ≤ c.toNat && c.toNat ≤ 13) || (28 ≤ c.toNat && c.toNat ≤ 32) || c.toNat = 133
    || c.toNat = 160 || c.toNat = 5760 || (8192 ≤ c.toNat && c.toNat ≤ 8202) || c.toNat = 8232
    || c.toNat = 8233 || c.toNat = 8239 || c.toNat = 8287 || c.toNat = 12288

/-- A letter of the pattern, in either case. The long s is an s to it. -/
def sameLetter (letter c : Char) : Bool := c.toLower = letter || (letter = 's' && c.toNat = 383)

/-- What is taken for a word, and what follows it. -/
def takeWord : List Char → List Char → Option (List Char × List Char)
  | [], cs => some ([], cs)
  | _ :: _, [] => none
  | letter :: word, c :: cs =>
    if sameLetter letter c then (takeWord word cs).map (fun r => (c :: r.1, r.2)) else none

/-- **`password\s*=\s*`**. -/
def takeKeyword (cs : List Char) : Option (List Char × List Char) :=
  (takeWord ['p', 'a', 's', 's', 'w', 'o', 'r', 'd'] cs).bind (fun word =>
    match word.2.dropWhile isWhitespace with
    | [] => none
    | c :: rest =>
      if c = '=' then
        some (word.1 ++ word.2.takeWhile isWhitespace ++ '=' :: rest.takeWhile isWhitespace,
          rest.dropWhile isWhitespace)
      else none)

/-- **`'[^']*'|"[^"]*"|[^\s]+`**: what follows a value. A quote without another is one of the
characters of a value without quotes. -/
def takeValue : List Char → Option (List Char)
  | [] => none
  | c :: cs =>
    if (c = '\x27' ∨ c = '"') ∧ c ∈ cs then (partition c cs).2
    else if isWhitespace c then none
    else some (cs.dropWhile (fun d => !isWhitespace d))

/-- What is kept of a match but for the blank before it, and what follows it. -/
def matchSetting (cs : List Char) : Option (List Char × List Char) :=
  (takeKeyword cs).bind (fun keyword => (takeValue keyword.2).map (fun rest => (keyword.1, rest)))

/-- The text from somewhere on, with asterisks for the values of matches. A match begins after a
blank, or at the start of all. -/
def subFrom : ℕ → Bool → List Char → List Char
  | 0, _, cs => cs
  | fuel + 1, atStart, cs =>
    match if atStart then matchSetting cs else none with
    | some (kept, rest) => kept ++ '*' :: '*' :: '*' :: subFrom fuel false rest
    | none =>
      match cs with
      | [] => []
      | c :: cs =>
        match if isWhitespace c then matchSetting cs else none with
        | some (kept, rest) => c :: kept ++ '*' :: '*' :: '*' :: subFrom fuel false rest
        | none => c :: subFrom fuel false cs

/-- **`_LIBPQ_PASSWORD_RE.sub`**. -/
def sub (cs : List Char) : List Char := subFrom (cs.length + 1) true cs

end Dsn

/-- **`redact_postgres_dsn`**. -/
def redactPostgresDsn (dsn : String) : String :=
  match urlsplit dsn.toList with
  | none => String.ofList (Dsn.sub dsn.toList)
  | some parsed =>
    match parsed.password, parsed.port with
    | some (_ :: _), some port =>
      let none := ['N', 'o', 'n', 'e']
      let netloc := parsed.username.getD none ++ [':', '*', '*', '*', '@']
        ++ parsed.hostname.getD none ++ numberText (if port = some 0 then Option.none else port)
      String.ofList (SplitResult.geturl { parsed with netloc })
    | _, _ => String.ofList (Dsn.sub dsn.toList)

/-! ## URIs have nothing for the pattern -/

namespace Url

theorem range_of_isAlphanum {c : Char} (h : c.isAlphanum = true) :
    33 ≤ c.toNat ∧ c.toNat < 127 := by
  have hsplit : (c.isUpper || c.isLower || c.isDigit) = true := h
  rw [Bool.or_eq_true, Bool.or_eq_true, isUpper_iff, isLower_iff, isDigit_iff] at hsplit
  omega

/-- The characters of URLs that are neither letters nor digits. -/
def punctuation : List Char :=
  ['-', '.', '_', '~', '!', '$', '&', '\x27', '(', ')', '*', '+', ',', ';', '=', '%', ':', '@', '/',
    '?', '[', ']']

/-- What a URL is written in is in ASCII, and no blank. -/
theorem range_of_isUrlChar {c : Char} (h : isUrlChar c = true) :
    33 ≤ c.toNat ∧ c.toNat < 127 := by
  have hmem : c.isAlphanum = true ∨ c ∈ punctuation := by
    simp only [isUrlChar, isQueryChar, isPathChar, isPasswordChar, isUserChar, isUnreserved,
      isSubDelim, Bool.or_eq_true, decide_eq_true_eq, List.contains_iff_mem, List.mem_cons,
      List.not_mem_nil, or_false, or_assoc, punctuation] at h ⊢
    exact h
  have hall : punctuation.all (fun d => 33 ≤ d.toNat && d.toNat < 127) = true := by decide
  rcases hmem with h | h
  · exact range_of_isAlphanum h
  · simpa using List.all_eq_true.1 hall c h

end Url

namespace Dsn

theorem not_isWhitespace_of_isUrlChar {c : Char} (h : isUrlChar c = true) :
    isWhitespace c = false := by
  have hrange := range_of_isUrlChar h
  rw [← Bool.not_eq_true]
  simp only [isWhitespace, Bool.or_eq_true, Bool.and_eq_true, decide_eq_true_eq]
  omega

/-- A text without blanks has no match but at its start. -/
theorem subFrom_of_not_isWhitespace :
    ∀ (fuel : ℕ) (cs : List Char), cs.all (fun c => !isWhitespace c) = true →
      subFrom fuel false cs = cs
  | 0, _, _ => rfl
  | _ + 1, [], _ => rfl
  | fuel + 1, c :: cs, h => by
    rw [List.all_cons, Bool.and_eq_true, Bool.not_eq_true'] at h
    unfold subFrom
    dsimp only
    rw [if_neg Bool.false_ne_true]
    dsimp only
    rw [if_neg (by rw [h.1]; exact Bool.false_ne_true)]
    dsimp only
    rw [subFrom_of_not_isWhitespace fuel cs h.2]

/-- Where there is no match at the start, it makes no difference. -/
theorem subFrom_atStart (fuel : ℕ) {cs : List Char} (h : matchSetting cs = none) :
    subFrom fuel true cs = subFrom fuel false cs := by
  cases fuel with
  | zero => rfl
  | succ fuel =>
    unfold subFrom
    rw [if_pos rfl, if_neg Bool.false_ne_true, h]

theorem sub_of_not_isWhitespace {cs : List Char} (h : cs.all (fun c => !isWhitespace c) = true)
    (hstart : matchSetting cs = none) : sub cs = cs := by
  rw [sub, subFrom_atStart _ hstart]
  exact subFrom_of_not_isWhitespace _ cs h

/-- A word is not there if one of its letters is not. -/
theorem takeWord_of_ne {letter c : Char} {word cs : List Char} (h : sameLetter letter c = false) :
    takeWord (letter :: word) (c :: cs) = none := by
  rw [takeWord, h, if_neg Bool.false_ne_true]

theorem takeWord_of_tail {letter c : Char} {word cs : List Char} (h : takeWord word cs = none) :
    takeWord (letter :: word) (c :: cs) = none := by
  rw [takeWord, h]
  split_ifs <;> rfl

theorem matchSetting_of_ne {c d : Char} (cs : List Char) (h : sameLetter 'a' d = false) :
    matchSetting (c :: d :: cs) = none := by
  have hword : takeWord ['p', 'a', 's', 's', 'w', 'o', 'r', 'd'] (c :: d :: cs) = none :=
    takeWord_of_tail (takeWord_of_ne h)
  unfold matchSetting takeKeyword
  rw [hword]
  rfl

end Dsn

namespace ConnectionUrl

variable {u v : ConnectionUrl}

/-- **A connection URI** that libpq takes. -/
structure IsUri (u : ConnectionUrl) : Prop where
  scheme : u.scheme.chars = ['p', 'o', 's', 't', 'g', 'r', 'e', 's', 'q', 'l']
    ∨ u.scheme.chars = ['p', 'o', 's', 't', 'g', 'r', 'e', 's']
  port : ∀ h ∈ u.hosts, h.number ≠ some 0

/-- The URL has a password; an empty one is none. -/
def HasPassword (u : ConnectionUrl) : Prop := ∃ p, u.password = some p ∧ p.chars ≠ []

/-- **The pattern finds nothing in a URI.** -/
theorem sub_text (huri : u.IsUri) : Dsn.sub u.text = u.text := by
  have hvisible : u.text.all (fun c => !Dsn.isWhitespace c) = true :=
    all_mono (fun c hc => by rw [Dsn.not_isWhitespace_of_isUrlChar hc]; rfl) u.all_text
  refine Dsn.sub_of_not_isWhitespace hvisible ?_
  unfold text
  rcases huri.scheme with h | h
  · rw [h]
    exact Dsn.matchSetting_of_ne _ (by decide)
  · rw [h]
    exact Dsn.matchSetting_of_ne _ (by decide)

/-- What is shown of the hosts of a URI. One without a host has `None` there. -/
def uriHostsShown (u : ConnectionUrl) : List Char :=
  (if u.hostChars = [] then ['N', 'o', 'n', 'e'] else lowerHost u.hostChars)
    ++ numberText u.lastHost.number

theorem lastHost_mem (u : ConnectionUrl) : u.lastHost ∈ u.hosts := List.getLast_mem _

/-- **A URI is masked** if it has a password and its port is read. -/
theorem redactPostgresDsn_of_masked (huri : u.IsUri) (hp : u.HasPassword) (h : u.PortReadable) :
    redactPostgresDsn (String.ofList u.text) = String.ofList (u.masked u.uriHostsShown) := by
  obtain ⟨hsplit, hhost, hport⟩ := urlsplit_of_portReadable h
  obtain ⟨p, hpassword, hne⟩ := hp
  obtain ⟨c, cs, hcs⟩ := List.exists_cons_of_ne_nil hne
  have hgetD : u.splitResult.hostname.getD ['N', 'o', 'n', 'e']
      = if u.hostChars = [] then ['N', 'o', 'n', 'e'] else lowerHost u.hostChars := by
    rw [hhost]
    split_ifs <;> rfl
  have hnumber : (if u.lastHost.number = some 0 then none else u.lastHost.number)
      = u.lastHost.number := if_neg (huri.port _ u.lastHost_mem)
  have huser : u.user.getD ['N', 'o', 'n', 'e'] = u.user.getD [] := by
    unfold password at hpassword
    unfold user
    cases hc : u.credentials with
    | none =>
      rw [hc] at hpassword
      cases hpassword
    | some credentials => rfl
  unfold redactPostgresDsn
  rw [String.toList_ofList, hsplit]
  dsimp only
  rw [u.password_splitResult, hpassword, Option.map_some, hcs, hport]
  dsimp only
  rw [u.username_splitResult, hgetD, huser, hnumber]
  refine congrArg String.ofList ((u.geturl_splitResult _).trans ?_)
  unfold masked maskedNetloc uriHostsShown
  simp only [List.append_assoc, List.cons_append, List.nil_append]

/-- **A URI stays as it is** if it has no password or its port is not read. -/
theorem redactPostgresDsn_of_not (huri : u.IsUri) (h : ¬ (u.HasPassword ∧ u.PortReadable)) :
    redactPostgresDsn (String.ofList u.text) = String.ofList u.text := by
  unfold redactPostgresDsn
  rw [String.toList_ofList, sub_text huri]
  by_cases hread : u.PortReadable
  · rw [(urlsplit_of_portReadable hread).1]
    dsimp only
    rw [u.password_splitResult]
    cases hpassword : u.password with
    | none => rfl
    | some p =>
      have hnil : p.chars = [] := by
        by_contra hne
        exact h ⟨⟨p, hpassword, hne⟩, hread⟩
      rw [Option.map_some, hnil]
  · rcases urlsplit_of_not_portReadable hread with hsplit | ⟨hsplit, hport⟩
    · rw [hsplit]
    · rw [hsplit]
      dsimp only
      rw [hport]
      rcases u.splitResult.password with _ | (_ | ⟨c, cs⟩) <;> rfl

end ConnectionUrl

/-! ## What can be told from a redacted URI -/

namespace ConnectionUrl

variable {u v : ConnectionUrl}

theorem shown_uriHostsShown (u : ConnectionUrl) : Shown u.uriHostsShown := by
  unfold Shown uriHostsShown
  rw [List.all_append, all_numberText, Bool.and_true]
  split_ifs
  · decide
  · exact u.shown_lowerHost

/-- What is in lower case is not `None`. -/
theorem lowerHost_ne_none (cs : List Char) : lowerHost cs ≠ ['N', 'o', 'n', 'e'] := by
  cases cs with
  | nil => exact (by decide : ([] : List Char) ≠ ['N', 'o', 'n', 'e'])
  | cons c cs =>
    by_cases hc : c = '%'
    · rw [hc, lowerHost_percent]
      intro h
      exact absurd (List.cons.inj h).1 (by decide)
    · rw [lowerHost_cons hc]
      intro h
      have hN : c.toLower = 'N' := (List.cons.inj h).1
      by_cases heq : c.toLower = c
      · rw [heq] at hN
        rw [hN] at heq
        exact absurd heq (by decide)
      · have hlower := (isLower_of_toLower_ne heq).1
        rw [hN] at hlower
        exact absurd hlower (by decide)

theorem none_ne_hostsShown (h : u.PortReadable) (number : Option ℕ) :
    ['N', 'o', 'n', 'e'] ++ numberText number ≠ u.hostsShown := by
  intro heq
  rcases named_or_address h with hnamed | ⟨hmore, a, ha⟩
  · exact lowerHost_ne_none _ (numberText_inj (by decide) (colon_notMem_of_named hnamed) heq).1.symm
  · have hle := count_numberText_le number
    have htwo := two_le_count_hostsShown hmore ha
    rw [← heq, List.count_append, List.count_eq_zero.2 (by decide), Nat.zero_add] at htwo
    omega

/-- **Hosts are shown the same** in a URI if they are in any URL. -/
theorem hostsShown_of_uriHostsShown (hu : u.PortReadable) (hv : v.PortReadable)
    (h : u.uriHostsShown = v.uriHostsShown) : u.hostsShown = v.hostsShown := by
  unfold uriHostsShown at h
  split_ifs at h with hnil hnil' hnil'
  · unfold hostsShown
    rw [hnil, hnil', List.append_cancel_left h]
  · exact absurd h (none_ne_hostsShown hv _)
  · exact absurd h.symm (none_ne_hostsShown hu _)
  · exact h

theorem uriHostsShown_congr (hhost : u.host = v.host) (hmore : u.more = v.more) :
    u.uriHostsShown = v.uriHostsShown := by
  unfold uriHostsShown hostChars lastHost hosts
  simp only [hhost, hmore]

theorem HasPassword.isSome (h : u.HasPassword) : u.password.isSome := by
  obtain ⟨p, hp, _⟩ := h
  rw [hp]
  rfl

/-- A URI with the hosts of one that is read is read itself. -/
theorem portReadable_of_uriHostsShown (hu : u.PortReadable) (h : v.hostsText = u.uriHostsShown) :
    v.PortReadable := by
  unfold uriHostsShown at h
  split_ifs at h
  · refine portReadable_of_hostsText h ?_ (.inr ⟨_, _, rfl, by decide⟩)
    rw [List.mem_append, not_or]
    exact ⟨by decide, notMem_numberText (by decide) (by decide) _⟩
  · exact portReadable_of_hostsShown hu h

/-- An address is a host, and shown as one. -/
theorem uriHostsShown_of_address (hmore : u.more = []) {a : Address}
    (hname : u.host.name = .address a) : u.uriHostsShown = u.hostsShown := by
  refine congrArg (· ++ numberText u.lastHost.number) (if_neg ?_)
  rw [hostChars_of_more_eq_nil hmore, hname]
  intro hnil
  have htwo := two_le_count_of_address a
  rw [show a.chars = [] from hnil] at htwo
  exact absurd htwo (by decide)

theorem RunsOn.uriHostsShown_eq (h : u.RunsOn v) : u.uriHostsShown = v.uriHostsShown := by
  have hshown := h.hostsShown_eq
  obtain ⟨humore, hvmore, a, b, n, ha, hb, _⟩ := h
  rw [uriHostsShown_of_address humore ha, uriHostsShown_of_address hvmore hb, hshown]

end ConnectionUrl

/-- **`redact_postgres_dsn` is a redaction of URIs.** -/
def uriRedaction : Redaction where
  redact := redactPostgresDsn
  Takes := ConnectionUrl.IsUri
  HasPassword := ConnectionUrl.HasPassword
  shown := ConnectionUrl.uriHostsShown
  redact_of_masked := ConnectionUrl.redactPostgresDsn_of_masked
  redact_of_not := ConnectionUrl.redactPostgresDsn_of_not
  isSome := ConnectionUrl.HasPassword.isSome
  hasPassword_of_stars h := by
    obtain ⟨p, hp, hchars⟩ := Option.map_eq_some_iff.1 h
    exact ⟨p, hp, by rw [hchars]; exact List.cons_ne_nil _ _⟩
  shown_isShown := ConnectionUrl.shown_uriHostsShown
  shown_congr := ConnectionUrl.uriHostsShown_congr
  hostsShown_of_shown := ConnectionUrl.hostsShown_of_uriHostsShown
  shown_of_runsOn := ConnectionUrl.RunsOn.uriHostsShown_eq
  portReadable_of_shown := ConnectionUrl.portReadable_of_uriHostsShown

import AgoraPlugins.ConnectionUrl

/-!
# Masked URLs

Where the password of a URL is put out of sight, the rest is put together again from what was read
of it: the host in lower case and without its brackets, the port as a number
(`ConnectionUrl.masked`). The parts can be read from the result (`ConnectionUrl.masked_inj`), and
so can the hosts and the port (`ConnectionUrl.hosts_of_hostsShown`), but for an address: without
brackets, one with a port is written like the address that ends in the number of the port
(`ConnectionUrl.Confused`).
-/

open Url

/-- **What a URL names**, by which a client finds a server and a database there. The case of hosts
makes no difference, up to a percent sign. -/
structure Location where
  scheme : List Char
  user : Option (List Char)
  hosts : List (List Char × Option ℕ)
  path : List Char
  query : List Char

namespace Url

/-- What a host names: its name in lower case, and its port by its number. -/
def Host.location (h : Host) : List Char × Option ℕ := (lowerHost h.name.chars, h.number)

end Url

namespace ConnectionUrl

/-- **What a URL names.** -/
def location (u : ConnectionUrl) : Location :=
  ⟨u.scheme.chars, u.user, u.hosts.map Host.location, u.pathText, u.queryChars⟩

/-! ## Texts that are equal -/

variable {u v : ConnectionUrl}

/-- URLs that are equal are so part by part. -/
theorem assembled_inj {n n' t t' : List Char} (hn : ∀ c ∈ n, isInNetloc c = true)
    (hn' : ∀ c ∈ n', isInNetloc c = true) (ht : ∀ c ∈ t.head?, isInNetloc c = false)
    (ht' : ∀ c ∈ t'.head?, isInNetloc c = false)
    (h : u.scheme.chars ++ ':' :: '/' :: '/' :: (n ++ t)
      = v.scheme.chars ++ ':' :: '/' :: '/' :: (n' ++ t')) :
    u.scheme.chars = v.scheme.chars ∧ n = n' ∧ t = t' := by
  obtain ⟨hscheme, hrest⟩ := append_inj_first u.scheme.colon_notMem v.scheme.colon_notMem h
  exact ⟨hscheme, append_inj_span hn hn' ht ht' (List.cons.inj (List.cons.inj hrest).2).2⟩

end ConnectionUrl

namespace Url

/-- Texts without commas are equal where they are joined by commas. -/
theorem joined_inj :
    ∀ (t t' : List Char) (ts ts' : List (List Char)), (∀ v ∈ t :: ts, ',' ∉ v) →
      (∀ v ∈ t' :: ts', ',' ∉ v) → joined t ts = joined t' ts' → t :: ts = t' :: ts'
  | t, t', [], [], _, _, h => by rw [show t = t' from h]
  | t, t', [], w :: ts', ht, _, h => by
    have hmem : ',' ∈ t := by
      rw [show t = t' ++ ',' :: joined w ts' from h]
      simp
    exact absurd hmem (ht t List.mem_cons_self)
  | t, t', w :: ts, [], _, ht', h => by
    have hmem : ',' ∈ t' := by
      rw [show t' = t ++ ',' :: joined w ts from h.symm]
      simp
    exact absurd hmem (ht' t' List.mem_cons_self)
  | t, t', w :: ts, w' :: ts', ht, ht', h => by
    obtain ⟨hhead, htail⟩ :=
      append_inj_first (ht t List.mem_cons_self) (ht' t' List.mem_cons_self) h
    have ih := joined_inj w w' ts ts' (fun v hv => ht v (List.mem_cons_of_mem t hv))
      (fun v hv => ht' v (List.mem_cons_of_mem t' hv)) htail
    rw [hhead, ih]

/-- The number of a port, from its text. -/
def numberOf (cs : List Char) : Option ℕ :=
  if cs = [] then none else some (Nat.ofDigitChars 10 cs 0)

/-- The number of a port is that of its digits. -/
theorem Host.number_eq (h : Host) : h.number = (h.port.map Port.chars).bind numberOf := by
  unfold Host.number
  cases h.port <;> rfl

/-- What a host names is read from its text. -/
theorem Host.location_eq (h : Host) :
    h.location = (lowerHost (splitHost h.text).1, (splitHost h.text).2.bind numberOf) := by
  rw [ConnectionUrl.splitHost_text, ← h.number_eq]
  rfl

theorem Host.comma_notMem (h : Host) : ',' ∉ h.text := by
  have hname : ',' ∉ h.name.text := by
    cases h.name with
    | name s => exact s.notMem (by decide)
    | address a =>
      have : ',' ∉ a.chars := notMem_of_all a.spelled (by decide)
      simp [HostName.text, this]
  rw [Host.text, List.mem_append, not_or]
  exact ⟨hname, ConnectionUrl.notMem_portText (by decide) (by decide) h⟩

end Url

namespace ConnectionUrl

variable {u v : ConnectionUrl}

/-- Hosts that are written the same name the same. -/
theorem hosts_of_hostsText (h : u.hostsText = v.hostsText) :
    u.hosts.map Host.location = v.hosts.map Host.location := by
  have hcomma : ∀ w : ConnectionUrl, ∀ t ∈ w.host.text :: w.more.map Host.text, ',' ∉ t := by
    intro w t ht
    rw [← List.map_cons] at ht
    obtain ⟨k, _, rfl⟩ := List.mem_map.1 ht
    exact k.comma_notMem
  have htexts : u.hosts.map Host.text = v.hosts.map Host.text :=
    joined_inj _ _ _ _ (hcomma u) (hcomma v) h
  have hlocation : Host.location
      = (fun t => (lowerHost (splitHost t).1, (splitHost t).2.bind numberOf)) ∘ Host.text :=
    funext Host.location_eq
  rw [hlocation, ← List.map_map, htexts, List.map_map]

/-- The user is read from what is before the hosts. -/
theorem user_eq (u : ConnectionUrl) :
    u.user = (u.credentials.map Credentials.info).map (fun info => (partition ':' info).1) := by
  unfold user
  cases u.credentials with
  | none => rfl
  | some c =>
    have huser : ':' ∉ c.user.chars := c.user.notMem (by decide)
    obtain ⟨user, password⟩ := c
    cases password with
    | none => simp [Credentials.info, partition_of_notMem huser]
    | some password => simp [Credentials.info, partition_append huser]

/-- **URLs with one text name the same.** -/
theorem location_of_text (h : u.text = v.text) : u.location = v.location := by
  obtain ⟨hscheme, hnetloc, htail⟩ := assembled_inj (fun _ hc => u.isInNetloc_of_mem hc)
    (fun _ hc => v.isInNetloc_of_mem hc) u.head_tail v.head_tail h
  have hat : (u.credentials.map Credentials.info, u.hostsText)
      = (v.credentials.map Credentials.info, v.hostsText) := by
    rw [← u.rpartition_netloc, hnetloc, v.rpartition_netloc]
  have hquestion : (u.pathText, u.query.map Spelling.chars)
      = (v.pathText, v.query.map Spelling.chars) := by
    rw [← u.partition_tail, htail, v.partition_tail]
  have hquery : ∀ w : ConnectionUrl, w.queryChars = (w.query.map Spelling.chars).getD [] := by
    intro w
    unfold queryChars
    cases w.query <;> rfl
  have huser : u.user = v.user := by rw [u.user_eq, v.user_eq, (Prod.mk.inj hat).1]
  unfold location
  rw [hscheme, huser, hosts_of_hostsText (Prod.mk.inj hat).2, (Prod.mk.inj hquestion).1,
    hquery u, hquery v, (Prod.mk.inj hquestion).2]

end ConnectionUrl

/-! ## Hosts in lower case -/

namespace Url

@[simp] theorem lowerHost_nil : lowerHost [] = [] := rfl

/-- From a percent sign on, the case stays. -/
@[simp] theorem lowerHost_percent (cs : List Char) : lowerHost ('%' :: cs) = '%' :: cs := by
  simp [lowerHost, partition]

/-- Before it, each character is lowered. -/
theorem lowerHost_cons {c : Char} (hc : c ≠ '%') (cs : List Char) :
    lowerHost (c :: cs) = c.toLower :: lowerHost cs := by
  simp [lowerHost, partition, hc]

/-- Only capitals have another letter in lower case. -/
theorem isLower_of_toLower_ne {c : Char} (h : c.toLower ≠ c) :
    c.toLower.isLower = true ∧ c.isUpper = true := by
  unfold Char.toLower at h ⊢
  split_ifs at h ⊢ with hupper
  · have hge : 65 ≤ c.val.toNat := UInt32.le_iff_toNat_le.1 hupper.1
    have hle : c.val.toNat ≤ 90 := UInt32.le_iff_toNat_le.1 hupper.2
    have hadd : (c.val + ('a'.val - 'A'.val)).toNat = c.val.toNat + 32 := by
      rw [UInt32.toNat_add]
      exact Nat.mod_eq_of_lt (Nat.lt_of_le_of_lt (Nat.add_le_add_right hle _) (by decide))
    refine ⟨isLower_iff.2 ?_, isUpper_iff.2 ⟨hge, hle⟩⟩
    show 97 ≤ (c.val + ('a'.val - 'A'.val)).toNat ∧ (c.val + ('a'.val - 'A'.val)).toNat ≤ 122
    rw [hadd]
    exact ⟨Nat.add_le_add_right hge 32, Nat.add_le_add_right hle 32⟩
  · exact absurd rfl h

/-- What is no letter stays. -/
theorem toLower_eq_iff {c d : Char} (hlower : d.isLower = false) (hupper : d.isUpper = false) :
    c.toLower = d ↔ c = d := by
  by_cases h : c.toLower = c
  · rw [h]
  · obtain ⟨hlow, hup⟩ := isLower_of_toLower_ne h
    constructor
    · rintro rfl
      rw [hlower] at hlow
      exact absurd hlow Bool.false_ne_true
    · rintro rfl
      rw [hupper] at hup
      exact absurd hup Bool.false_ne_true

/-- A character without case occurs as often as before. -/
theorem count_lowerHost {d : Char} (hlower : d.isLower = false) (hupper : d.isUpper = false) :
    ∀ cs : List Char, (lowerHost cs).count d = cs.count d
  | [] => rfl
  | c :: cs => by
    by_cases hc : c = '%'
    · rw [hc, lowerHost_percent]
    · rw [lowerHost_cons hc, List.count_cons, List.count_cons, count_lowerHost hlower hupper cs]
      simp only [beq_iff_eq, toLower_eq_iff hlower hupper]

theorem mem_lowerHost_iff {d : Char} (hlower : d.isLower = false) (hupper : d.isUpper = false)
    (cs : List Char) : d ∈ lowerHost cs ↔ d ∈ cs := by
  rw [← List.count_pos_iff, ← List.count_pos_iff, count_lowerHost hlower hupper]

/-- Of texts with a comma between them, the second is in lower case unless the first has a percent
sign. -/
theorem lowerHost_append (a b : List Char) :
    lowerHost (a ++ b) = lowerHost a ++ if '%' ∈ a then b else lowerHost b := by
  induction a with
  | nil => simp
  | cons c a ih =>
    by_cases hc : c = '%'
    · simp [hc]
    · rw [List.cons_append, lowerHost_cons hc, lowerHost_cons hc, ih, List.cons_append]
      simp [Ne.symm hc]

/-- **Hosts that are the same in lower case** are so one by one. -/
theorem map_lowerHost_of_joined :
    ∀ (t t' : List Char) (ts ts' : List (List Char)), (∀ v ∈ t :: ts, ',' ∉ v) →
      (∀ v ∈ t' :: ts', ',' ∉ v) → lowerHost (joined t ts) = lowerHost (joined t' ts') →
      (t :: ts).map lowerHost = (t' :: ts').map lowerHost
  | t, t', [], [], _, _, h => congrArg (fun v => [v]) h
  | t, t', [], w :: ts', ht, _, h => by
    have hmem : ',' ∈ lowerHost t := by
      rw [show lowerHost t = _ from h, mem_lowerHost_iff (by decide) (by decide), joined]
      simp
    exact absurd ((mem_lowerHost_iff (by decide) (by decide) t).1 hmem) (ht t List.mem_cons_self)
  | t, t', w :: ts, [], _, ht', h => by
    have hmem : ',' ∈ lowerHost t' := by
      rw [show lowerHost t' = _ from h.symm, mem_lowerHost_iff (by decide) (by decide), joined]
      simp
    exact absurd ((mem_lowerHost_iff (by decide) (by decide) t').1 hmem)
      (ht' t' List.mem_cons_self)
  | t, t', w :: ts, w' :: ts', ht, ht', h => by
    have hcomma : ∀ t : List Char, ',' ∉ t → ',' ∉ lowerHost t := fun t h =>
      (mem_lowerHost_iff (by decide) (by decide) t).not.2 h
    have hpush : ∀ (t : List Char) (rest : List Char),
        (if '%' ∈ t then ',' :: rest else lowerHost (',' :: rest))
          = ',' :: if '%' ∈ t then rest else lowerHost rest := by
      intro t rest
      rw [lowerHost_cons (by decide)]
      split_ifs <;> rfl
    rw [joined, joined, lowerHost_append, lowerHost_append, hpush, hpush] at h
    obtain ⟨hhead, htail⟩ := append_inj_first (hcomma t (ht t List.mem_cons_self))
      (hcomma t' (ht' t' List.mem_cons_self)) h
    have hpercent : '%' ∈ t ↔ '%' ∈ t' := by
      rw [← mem_lowerHost_iff (by decide) (by decide) t, hhead,
        mem_lowerHost_iff (by decide) (by decide) t']
    have hrest : lowerHost (joined w ts) = lowerHost (joined w' ts') := by
      by_cases hp : '%' ∈ t
      · rw [if_pos hp, if_pos (hpercent.1 hp)] at htail
        rw [htail]
      · rwa [if_neg hp, if_neg (hpercent.not.1 hp)] at htail
    have ih := map_lowerHost_of_joined w w' ts ts' (fun v hv => ht v (List.mem_cons_of_mem t hv))
      (fun v hv => ht' v (List.mem_cons_of_mem t' hv)) hrest
    exact List.cons_eq_cons.2 ⟨hhead, ih⟩

end Url

/-! ## Masked URLs -/

namespace Url

/-- The text of a port that is named. -/
def numberText : Option ℕ → List Char
  | none => []
  | some n => ':' :: Nat.toDigits 10 n

theorem isDigit_of_mem_toDigits {n : ℕ} {c : Char} (hc : c ∈ Nat.toDigits 10 n) :
    c.isDigit = true :=
  Nat.isDigit_of_mem_toDigits (by decide) (by decide) hc

/-- **Numbers are told apart** by their digits. -/
theorem toDigits_inj {n m : ℕ} (h : Nat.toDigits 10 n = Nat.toDigits 10 m) : n = m := by
  rw [← Nat.ofDigitChars_ten_toDigits (n := n), h, Nat.ofDigitChars_ten_toDigits]

/-- What is no digit does not occur in them. -/
theorem notMem_toDigits {n : ℕ} {c : Char} (hc : c.isDigit = false) : c ∉ Nat.toDigits 10 n := by
  intro hmem
  rw [isDigit_of_mem_toDigits hmem] at hc
  exact absurd hc (by decide)

theorem notMem_numberText {c : Char} (hc : c.isDigit = false) (hcolon : c ≠ ':') :
    ∀ number : Option ℕ, c ∉ numberText number
  | none => List.not_mem_nil
  | some n => by simp [numberText, hcolon, notMem_toDigits hc]

/-- A host without a colon, and its port. -/
theorem numberText_inj {a b : List Char} {number number' : Option ℕ} (ha : ':' ∉ a) (hb : ':' ∉ b)
    (h : a ++ numberText number = b ++ numberText number') : a = b ∧ number = number' := by
  have hcut : ∀ {a : List Char}, ':' ∉ a → ∀ number : Option ℕ,
      partition ':' (a ++ numberText number) = (a, number.map (Nat.toDigits 10)) := by
    intro a ha number
    cases number with
    | none =>
      rw [numberText, List.append_nil]
      exact partition_of_notMem ha
    | some n => exact partition_append ha
  have hboth := congrArg (partition ':') h
  rw [hcut ha, hcut hb] at hboth
  obtain ⟨hab, hnumbers⟩ := Prod.mk.inj hboth
  refine ⟨hab, ?_⟩
  cases number with
  | none =>
    cases number' with
    | none => rfl
    | some m => cases hnumbers
  | some n =>
    cases number' with
    | none => cases hnumbers
    | some m => rw [toDigits_inj (Option.some.inj hnumbers)]

theorem count_numberText_le (number : Option ℕ) : (numberText number).count ':' ≤ 1 := by
  cases number with
  | none => simp [numberText]
  | some n =>
    have hcount : (Nat.toDigits 10 n).count ':' = 0 :=
      List.count_eq_zero.2 (notMem_toDigits (by decide))
    simp [numberText, hcount]

/-- A text falls into one part more than it has separators. -/
theorem length_splitOn (c : Char) (cs : List Char) : (cs.splitOn c).length = cs.count c + 1 := by
  induction cs with
  | nil => rfl
  | cons d cs ih =>
    rw [List.splitOn_cons_eq_if_modifyHead, List.count_cons]
    split_ifs
    · rw [List.length_cons, ih]
    · rw [List.length_modifyHead, ih, Nat.add_zero]

/-- What stands before a separator is a part of the text. -/
theorem partition_sublist (sep : Char) (cs : List Char) : (partition sep cs).1.Sublist cs := by
  induction cs with
  | nil => exact List.Sublist.refl []
  | cons c cs ih =>
    rw [partition]
    split_ifs
    · exact List.nil_sublist _
    · exact ih.cons_cons c

/-- An address has two colons at least. -/
theorem two_le_count_of_address (a : Address) : 2 ≤ a.chars.count ':' := by
  have hcheck := a.check
  rw [checkBracketedHost, if_neg a.known, isIPv6, Bool.and_eq_true] at hcheck
  have hparts := hcheck.2
  unfold hextets at hparts
  dsimp only at hparts
  split_ifs at hparts with hlength
  · cases hparts
  all_goals
    rw [length_splitOn] at hlength
    have hle := (partition_sublist '%' a.chars).count_le ':'
    omega

end Url

namespace ConnectionUrl

/-- The query, if it says something. -/
def queryTail (u : ConnectionUrl) : List Char :=
  if u.queryChars = [] then [] else '?' :: u.queryChars

/-- **A URL with another netloc**, put together again. -/
theorem geturl_splitResult (u : ConnectionUrl) (netloc : List Char) :
    SplitResult.geturl ⟨u.scheme.chars, netloc, u.pathText, u.queryChars, []⟩
      = u.scheme.chars ++ ':' :: '/' :: '/' :: (netloc ++ (u.pathText ++ u.queryTail)) := by
  have hpath : u.pathText = [] ∨ u.pathText.head? = some '/' := by
    unfold pathText
    cases u.path with
    | none => exact .inl rfl
    | some path => exact .inr rfl
  simp [SplitResult.geturl, hpath, u.scheme.ne_nil, queryTail]

/-- **What is shown of a URL with a password**: the user, asterisks, and a text for the hosts. -/
def maskedNetloc (u : ConnectionUrl) (hosts : List Char) : List Char :=
  u.user.getD [] ++ ':' :: '*' :: '*' :: '*' :: '@' :: hosts

/-- The URL as it is shown. -/
def masked (u : ConnectionUrl) (hosts : List Char) : List Char :=
  u.scheme.chars ++ ':' :: '/' :: '/' :: (u.maskedNetloc hosts ++ (u.pathText ++ u.queryTail))

variable {u v : ConnectionUrl}

/-- The authority ends where the path begins, or the query. -/
theorem head_queryTail (u : ConnectionUrl) :
    ∀ c ∈ (u.pathText ++ u.queryTail).head?, isInNetloc c = false := by
  unfold pathText queryTail
  cases u.path with
  | none =>
    split_ifs
    · simp
    · simp [isInNetloc]
  | some path => simp [isInNetloc]

/-- The first question mark after it begins the query, if that has any characters. -/
theorem partition_queryTail (u : ConnectionUrl) :
    partition '?' (u.pathText ++ u.queryTail)
      = (u.pathText, if u.queryChars = [] then none else some u.queryChars) := by
  have hpath : '?' ∉ u.pathText := notMem_of_all u.all_pathText (by decide)
  unfold queryTail
  split_ifs
  · rw [List.append_nil]
    exact partition_of_notMem hpath
  · exact partition_append hpath

/-- What is shown of the hosts is made of their characters. -/
def Shown (hosts : List Char) : Prop := hosts.all isHostsChar = true

theorem user_getD (u : ConnectionUrl) : (u.user.getD []).all isUserChar = true := by
  unfold user
  cases u.credentials with
  | none => rfl
  | some c => exact c.user.spelled

/-- **The masked authority** is read as one again. -/
theorem isInNetloc_of_mem_masked {hosts : List Char} (hhosts : Shown hosts) :
    ∀ c ∈ u.maskedNetloc hosts, isInNetloc c = true := by
  intro c hc
  have hall : (u.maskedNetloc hosts).all (fun c => isHostsChar c || c = '@') = true := by
    have huser : (u.user.getD []).all (fun c => isHostsChar c || c = '@') = true :=
      all_mono (fun d hd => by simp [isHostsChar, isPasswordChar, hd]) u.user_getD
    have hrest : hosts.all (fun c => isHostsChar c || c = '@') = true :=
      all_mono (fun d hd => by simp [hd]) hhosts
    simp only [maskedNetloc, List.all_append, List.all_cons, huser, hrest]
    decide
  have hslash : c ≠ '/' := fun h => notMem_of_all hall (by decide) (h ▸ hc)
  have hquestion : c ≠ '?' := fun h => notMem_of_all hall (by decide) (h ▸ hc)
  have hhash : c ≠ '#' := fun h => notMem_of_all hall (by decide) (h ▸ hc)
  simp [isInNetloc, hslash, hquestion, hhash]

/-- **Masked URLs that are equal** are so part by part. -/
theorem masked_inj {hosts hosts' : List Char} (hhosts : Shown hosts) (hhosts' : Shown hosts')
    (h : u.masked hosts = v.masked hosts') :
    u.scheme.chars = v.scheme.chars ∧ u.user.getD [] = v.user.getD [] ∧ hosts = hosts'
      ∧ u.pathText = v.pathText ∧ u.queryChars = v.queryChars := by
  obtain ⟨hscheme, hnetloc, htail⟩ := assembled_inj (isInNetloc_of_mem_masked hhosts)
    (isInNetloc_of_mem_masked hhosts') u.head_queryTail v.head_queryTail h
  have huser : ∀ w : ConnectionUrl, ':' ∉ w.user.getD [] := fun w =>
    notMem_of_all w.user_getD (by decide)
  obtain ⟨hsame, hrest⟩ := append_inj_first (huser u) (huser v) hnetloc
  have hquestion := congrArg (partition '?') htail
  rw [u.partition_queryTail, v.partition_queryTail] at hquestion
  obtain ⟨hpath, hquery⟩ := Prod.mk.inj hquestion
  refine ⟨hscheme, hsame, by simpa using hrest, hpath, ?_⟩
  by_cases hu : u.queryChars = []
  · by_cases hv : v.queryChars = []
    · rw [hu, hv]
    · rw [if_pos hu, if_neg hv] at hquery
      cases hquery
  · by_cases hv : v.queryChars = []
    · rw [if_neg hu, if_pos hv] at hquery
      cases hquery
    · rw [if_neg hu, if_neg hv] at hquery
      exact Option.some.inj hquery

end ConnectionUrl

/-! ## What can be told -/

namespace Url

/-- Hosts with a port at most after the last name the same if their names and this port do. -/
theorem map_location_of_dropLast :
    ∀ (h k : Host) (hs ks : List Host), (∀ j ∈ (h :: hs).dropLast, j.port = none) →
      (∀ j ∈ (k :: ks).dropLast, j.port = none) →
      (h :: hs).map (fun j => lowerHost j.name.chars)
        = (k :: ks).map (fun j => lowerHost j.name.chars) →
      ((h :: hs).getLast (List.cons_ne_nil h hs)).number
        = ((k :: ks).getLast (List.cons_ne_nil k ks)).number →
      (h :: hs).map Host.location = (k :: ks).map Host.location
  | h, k, [], [], _, _, hnames, hnumber => by
    have hname : lowerHost h.name.chars = lowerHost k.name.chars := (List.cons.inj hnames).1
    show [(_, h.number)] = [(_, k.number)]
    rw [hname, show h.number = k.number from hnumber]
  | _, _, [], _ :: _, _, _, hnames, _ => by cases (List.cons.inj hnames).2
  | _, _, _ :: _, [], _, _, hnames, _ => by cases (List.cons.inj hnames).2
  | h, k, h' :: hs, k' :: ks, hports, kports, hnames, hnumber => by
    obtain ⟨hname, hrest⟩ := List.cons.inj hnames
    have hnone : h.number = none := by rw [Host.number, hports h List.mem_cons_self]; rfl
    have knone : k.number = none := by rw [Host.number, kports k List.mem_cons_self]; rfl
    have hlocation : h.location = k.location := by
      unfold Host.location
      rw [show lowerHost h.name.chars = lowerHost k.name.chars from hname, hnone, knone]
    have ih := map_location_of_dropLast h' k' hs ks
      (fun j hj => hports j (List.mem_cons_of_mem h hj))
      (fun j hj => kports j (List.mem_cons_of_mem k hj)) hrest
      (by rwa [List.getLast_cons (List.cons_ne_nil h' hs),
        List.getLast_cons (List.cons_ne_nil k' ks)] at hnumber)
    exact List.cons_eq_cons.2 ⟨hlocation, ih⟩

end Url

namespace ConnectionUrl

variable {u v : ConnectionUrl}

/-- The hosts are names, and none but the last has a port. -/
def Named (u : ConnectionUrl) : Prop :=
  (∀ h ∈ u.hosts, h.name.IsName) ∧ ∀ h ∈ u.hosts.dropLast, h.port = none

/-- **A port that can be read**: the hosts have names, or there is one address. -/
theorem named_or_address (h : u.PortReadable) :
    u.Named ∨ u.more = [] ∧ ∃ a, u.host.name = .address a := by
  rcases h with hmore | hnamed
  · cases hname : u.host.name with
    | name s =>
      refine .inl ⟨fun h hh => ?_, fun h hh => ?_⟩
      · rw [hosts, hmore, List.mem_singleton] at hh
        rw [hh, hname]
        trivial
      · rw [hosts, hmore] at hh
        exact absurd hh List.not_mem_nil
    | address a => exact .inr ⟨hmore, a, rfl⟩
  · exact .inl hnamed

/-- **One names an address and a port, and the other the address that it is with the port for its
end.** -/
def RunsOn (u v : ConnectionUrl) : Prop :=
  u.more = [] ∧ v.more = [] ∧ ∃ (a b : Address) (n : ℕ), u.host.name = .address a
    ∧ v.host.name = .address b ∧ u.host.number = some n ∧ v.host.number = none
    ∧ lowerHost b.chars = lowerHost a.chars ++ ':' :: Nat.toDigits 10 n

/-- What is shown of hosts that are read. -/
def hostsShown (u : ConnectionUrl) : List Char :=
  lowerHost u.hostChars ++ numberText u.lastHost.number

theorem colon_notMem_of_named (h : u.Named) : ':' ∉ lowerHost u.hostChars :=
  (mem_lowerHost_iff (by decide) (by decide) _).not.2
    (notMem_of_all (all_hostChars h.1) (by decide))

/-- So hosts that are shown have one at most. -/
theorem count_hostsShown_of_named (h : u.Named) : u.hostsShown.count ':' ≤ 1 := by
  rw [hostsShown, List.count_append, List.count_eq_zero.2 (colon_notMem_of_named h), Nat.zero_add]
  exact count_numberText_le _

theorem two_le_count_hostsShown (hmore : u.more = []) {a : Address}
    (hname : u.host.name = .address a) : 2 ≤ u.hostsShown.count ':' := by
  rw [hostsShown, List.count_append, count_lowerHost (by decide) (by decide),
    hostChars_of_more_eq_nil hmore, hname]
  exact Nat.le_add_right_of_le (two_le_count_of_address a)

/-- **Hosts with names are shown as what they name.** -/
theorem hosts_of_named (hu : u.Named) (hv : v.Named) (h : u.hostsShown = v.hostsShown) :
    u.hosts.map Host.location = v.hosts.map Host.location := by
  obtain ⟨hnames, hnumber⟩ :=
    numberText_inj (colon_notMem_of_named hu) (colon_notMem_of_named hv) h
  have hcomma : ∀ {w : ConnectionUrl}, w.Named →
      ∀ t ∈ w.host.name.chars :: w.more.map (fun h => h.name.chars), ',' ∉ t := by
    intro w hw t ht
    rw [← List.map_cons (f := fun h : Host => h.name.chars)] at ht
    obtain ⟨k, hk, rfl⟩ := List.mem_map.1 ht
    exact notMem_of_all (HostName.all_of_isName (hw.1 k hk)) (by decide)
  have hlower := map_lowerHost_of_joined _ _ _ _ (hcomma hu) (hcomma hv) hnames
  refine map_location_of_dropLast _ _ _ _ hu.2 hv.2 ?_ hnumber
  rw [← List.map_cons (f := fun h : Host => h.name.chars), List.map_map,
    ← List.map_cons (f := fun h : Host => h.name.chars), List.map_map] at hlower
  exact hlower

/-- **Hosts that are shown the same** name the same, unless it is an address that runs on. -/
theorem hosts_of_hostsShown (hu : u.PortReadable) (hv : v.PortReadable)
    (h : u.hostsShown = v.hostsShown) :
    u.hosts.map Host.location = v.hosts.map Host.location ∨ u.RunsOn v ∨ v.RunsOn u := by
  rcases named_or_address hu with hu | ⟨humore, a, ha⟩
  · rcases named_or_address hv with hv | ⟨hvmore, b, hb⟩
    · exact .inl (hosts_of_named hu hv h)
    · have hle := count_hostsShown_of_named hu
      rw [h] at hle
      exact absurd (two_le_count_hostsShown hvmore hb) (by omega)
  · rcases named_or_address hv with hv | ⟨hvmore, b, hb⟩
    · have hle := count_hostsShown_of_named hv
      rw [← h] at hle
      exact absurd (two_le_count_hostsShown humore ha) (by omega)
    · unfold hostsShown at h
      rw [hostChars_of_more_eq_nil humore, hostChars_of_more_eq_nil hvmore,
        lastHost_of_more_eq_nil humore, lastHost_of_more_eq_nil hvmore, ha, hb] at h
      have hhosts : lowerHost a.chars = lowerHost b.chars → u.host.number = v.host.number →
          u.hosts.map Host.location = v.hosts.map Host.location := by
        intro hab hnumber
        show (_, u.host.number) :: u.more.map Host.location
          = (_, v.host.number) :: v.more.map Host.location
        rw [ha, hb, humore, hvmore, hnumber, show lowerHost (HostName.address a).chars = _ from hab]
        rfl
      cases hn : u.host.number with
      | none =>
        cases hm : v.host.number with
        | none =>
          rw [hn, hm, numberText, List.append_nil, List.append_nil] at h
          exact .inl (hhosts h (by rw [hn, hm]))
        | some m =>
          rw [hn, hm, numberText, List.append_nil] at h
          exact .inr (.inr ⟨hvmore, humore, b, a, m, hb, ha, hm, hn, h⟩)
      | some n =>
        cases hm : v.host.number with
        | none =>
          rw [hn, hm, numberText, numberText, List.append_nil] at h
          exact .inr (.inl ⟨humore, hvmore, a, b, n, ha, hb, hn, hm, h.symm⟩)
        | some m =>
          rw [hn, hm] at h
          obtain ⟨hab, hdigits⟩ := append_inj_last (notMem_toDigits (by decide))
            (notMem_toDigits (by decide)) h
          exact .inl (hhosts hab (by rw [hn, hm, toDigits_inj hdigits]))

end ConnectionUrl

namespace Url

theorem isHostsChar_of_isLower {c : Char} (h : c.isLower = true) : isHostsChar c = true := by
  simp [isHostsChar, isPasswordChar, isUserChar, isUnreserved, isAlphanum_of_isLower h]

/-- Hosts in lower case are written with the same characters. -/
theorem all_lowerHost {cs : List Char} (h : cs.all isHostsChar = true) :
    (lowerHost cs).all isHostsChar = true := by
  induction cs with
  | nil => rfl
  | cons c cs ih =>
    rw [List.all_cons, Bool.and_eq_true] at h
    by_cases hc : c = '%'
    · rw [hc, lowerHost_percent, List.all_cons, h.2]
      decide
    · have hlower : isHostsChar c.toLower = true := by
        by_cases heq : c.toLower = c
        · rw [heq]
          exact h.1
        · exact isHostsChar_of_isLower (isLower_of_toLower_ne heq).1
      rw [lowerHost_cons hc, List.all_cons, hlower, ih h.2]
      rfl

theorem HostName.all_chars (n : HostName) : n.chars.all isHostsChar = true := by
  cases n with
  | name s => exact all_mono (fun _ => isHostsChar_of_isNameChar) s.spelled
  | address a => exact all_mono (fun _ => isHostsChar_of_isAddressChar) a.spelled

theorem all_numberText (number : Option ℕ) : (numberText number).all isHostsChar = true := by
  cases number with
  | none => rfl
  | some n =>
    have hdigits : (Nat.toDigits 10 n).all isHostsChar = true :=
      List.all_eq_true.2 (fun _ hc =>
        isHostsChar_of_isNameChar (isNameChar_of_isDigit (isDigit_of_mem_toDigits hc)))
    rw [numberText, List.all_cons, hdigits]
    decide

end Url

namespace ConnectionUrl

variable {u v : ConnectionUrl}

/-- What is shown of the names may stand among hosts. -/
theorem shown_lowerHost (u : ConnectionUrl) : (lowerHost u.hostChars).all isHostsChar = true := by
  refine all_lowerHost (all_joined (by decide) _ _ u.host.name.all_chars (fun t ht => ?_))
  obtain ⟨h, _, rfl⟩ := List.mem_map.1 ht
  exact h.name.all_chars

theorem shown_hostsShown (u : ConnectionUrl) : Shown u.hostsShown := by
  unfold Shown hostsShown
  rw [List.all_append, u.shown_lowerHost, all_numberText]
  rfl

/-- **URLs with passwords that cannot be told apart.** They are alike but for their hosts, of which
one is an address that runs on. -/
def Confused (u v : ConnectionUrl) : Prop :=
  u.scheme.chars = v.scheme.chars ∧ u.user = v.user ∧ u.pathText = v.pathText
    ∧ u.queryChars = v.queryChars ∧ (u.RunsOn v ∨ v.RunsOn u)

/-- With a password there are credentials, so the users are the same if they are shown alike. -/
theorem user_of_getD (hu : u.password.isSome) (hv : v.password.isSome)
    (h : u.user.getD [] = v.user.getD []) : u.user = v.user := by
  have hsome : ∀ {w : ConnectionUrl}, w.password.isSome → w.user = some (w.user.getD []) := by
    intro w hw
    unfold password at hw
    unfold user
    cases hc : w.credentials with
    | none =>
      rw [hc] at hw
      cases hw
    | some c => rfl
  rw [hsome hu, hsome hv, h]

/-- Hosts and what runs on into them are shown alike. -/
theorem RunsOn.hostsShown_eq (h : u.RunsOn v) : u.hostsShown = v.hostsShown := by
  obtain ⟨humore, hvmore, a, b, n, ha, hb, hn, hm, hlower⟩ := h
  unfold hostsShown
  rw [hostChars_of_more_eq_nil humore, hostChars_of_more_eq_nil hvmore,
    lastHost_of_more_eq_nil humore, lastHost_of_more_eq_nil hvmore, ha, hb, hn, hm]
  show lowerHost a.chars ++ ':' :: Nat.toDigits 10 n = lowerHost b.chars ++ []
  rw [hlower, List.append_nil]

/-- URLs that are alike but for their hosts are masked alike if these are shown the same. -/
theorem masked_congr {hosts : List Char} (hscheme : u.scheme.chars = v.scheme.chars)
    (huser : u.user = v.user) (hpath : u.pathText = v.pathText)
    (hquery : u.queryChars = v.queryChars) : u.masked hosts = v.masked hosts := by
  unfold masked maskedNetloc queryTail
  rw [hscheme, huser, hpath, hquery]

theorem Confused.portReadable (h : u.Confused v) : u.PortReadable ∧ v.PortReadable := by
  obtain ⟨_, _, _, _, hruns | hruns⟩ := h
  · exact ⟨.inl hruns.1, .inl hruns.2.1⟩
  · exact ⟨.inl hruns.2.1, .inl hruns.1⟩

/-! ## Masked or not -/

/-- A text that says no more than a name and a port, or that has no comma, is read. -/
theorem portReadable_of_hostsText {text : List Char} (h : v.hostsText = text) (hopen : '[' ∉ text)
    (hcut : ',' ∉ text ∨ ∃ name number, text = name ++ numberText number ∧ ':' ∉ name) :
    v.PortReadable := by
  have hnames : ∀ h ∈ v.hosts, h.name.IsName := by
    intro k hk
    by_contra hnot
    refine hopen (h ▸ mem_joined _ _ ⟨k.text, ?_, ?_⟩)
    · rw [← List.map_cons]
      exact List.mem_map_of_mem hk
    · rw [Host.text]
      cases hname : k.name with
      | name s =>
        rw [hname] at hnot
        exact absurd trivial hnot
      | address a => simp [HostName.text]
  by_contra hnot
  obtain ⟨hmore, hboth⟩ := not_or.1 hnot
  rcases hcut with hcomma | ⟨name, number, htext, hcolon⟩
  · obtain ⟨k, ks, hks⟩ := List.exists_cons_of_ne_nil hmore
    refine hcomma (h ▸ ?_)
    rw [hostsText, hks, List.map_cons, joined]
    simp
  · have hports : ∃ h ∈ (v.host :: v.more).dropLast, h.port ≠ none := by
      by_contra hnone
      push Not at hnone
      exact hboth ⟨hnames, hnone⟩
    obtain ⟨before, rest, hbefore, hnot, hcomma⟩ :=
      exists_colon_of_port v.host v.more hnames hports
    have heq : before ++ ':' :: rest = name ++ numberText number := by
      rw [← hbefore, ← htext]
      exact h
    cases number with
    | none =>
      rw [numberText, List.append_nil] at heq
      exact hcolon (heq ▸ by simp)
    | some n =>
      obtain ⟨_, hrest⟩ := append_inj_first hnot hcolon heq
      exact notMem_toDigits (by decide) (hrest ▸ hcomma)

/-- **A URL that is written like a masked one** has a password, and the same text for its hosts. -/
theorem of_text_eq_masked {hosts : List Char} (hhosts : Shown hosts)
    (h : v.text = u.masked hosts) :
    v.password.map Spelling.chars = some ['*', '*', '*'] ∧ v.hostsText = hosts := by
  obtain ⟨_, hnetloc, _⟩ := assembled_inj (fun _ hc => v.isInNetloc_of_mem hc)
    (isInNetloc_of_mem_masked hhosts) v.head_tail u.head_queryTail h
  have hat := v.rpartition_netloc
  have hmasked : u.maskedNetloc hosts = (u.user.getD [] ++ [':', '*', '*', '*']) ++ '@' :: hosts := by
    simp [maskedNetloc]
  rw [hnetloc, hmasked, rpartition_append (notMem_of_all hhosts (by decide))] at hat
  obtain ⟨hinfo, htext⟩ := Prod.mk.inj hat
  refine ⟨?_, htext.symm⟩
  have huser : ':' ∉ u.user.getD [] := notMem_of_all u.user_getD (by decide)
  unfold password
  cases hc : v.credentials with
  | none =>
    rw [hc] at hinfo
    cases hinfo
  | some c =>
    rw [hc] at hinfo
    have hsame : u.user.getD [] ++ [':', '*', '*', '*'] = c.info := Option.some.inj hinfo
    have hcuser : ':' ∉ c.user.chars := c.user.notMem (by decide)
    unfold Credentials.info at hsame
    cases hp : c.password with
    | none =>
      rw [hp] at hsame
      dsimp only at hsame
      rw [← hsame] at hcuser
      exact absurd (by simp) hcuser
    | some p =>
      rw [hp] at hsame
      have hstars := (append_inj_first huser hcuser hsame).2
      rw [Option.bind_some, hp, Option.map_some, ← hstars]

/-- No bracket is shown where the port can be read. -/
theorem bracket_notMem_lowerHost (hu : u.PortReadable) : '[' ∉ lowerHost u.hostChars := by
  rw [mem_lowerHost_iff (by decide) (by decide)]
  rcases named_or_address hu with hu | ⟨humore, a, ha⟩
  · exact notMem_of_all (all_hostChars hu.1) (by decide)
  · rw [hostChars_of_more_eq_nil humore, ha]
    exact notMem_of_all a.spelled (by decide)

/-- A URL with the hosts of one that is read is read itself. -/
theorem portReadable_of_hostsShown (hu : u.PortReadable) (h : v.hostsText = u.hostsShown) :
    v.PortReadable := by
  refine portReadable_of_hostsText h ?_ ?_
  · rw [hostsShown, List.mem_append, not_or]
    exact ⟨bracket_notMem_lowerHost hu, notMem_numberText (by decide) (by decide) _⟩
  · rcases named_or_address hu with hu | ⟨humore, a, ha⟩
    · exact .inr ⟨_, _, rfl, colon_notMem_of_named hu⟩
    · refine .inl ?_
      rw [hostsShown, List.mem_append, not_or, mem_lowerHost_iff (by decide) (by decide),
        hostChars_of_more_eq_nil humore, ha]
      exact ⟨notMem_of_all a.spelled (by decide), notMem_numberText (by decide) (by decide) _⟩

/-! ## Another password -/

/-- **Only the password differs**, in front of the hosts. -/
def DiffersInUserinfo (u v : ConnectionUrl) : Prop :=
  ∃ user password password', u.credentials = some ⟨user, some password⟩
    ∧ v = { u with credentials := some ⟨user, some password'⟩ }

/-- **Only the password differs**, among the parameters of the query. -/
def DiffersInQuery (u v : ConnectionUrl) : Prop :=
  ∃ (query query' : Spelling isQueryChar) (before password password' after : List Char),
    u.query = some query ∧ v = { u with query := some query' }
    ∧ query.chars = before ++ ['p', 'a', 's', 's', 'w', 'o', 'r', 'd', '='] ++ password ++ after
    ∧ query'.chars = before ++ ['p', 'a', 's', 's', 'w', 'o', 'r', 'd', '='] ++ password' ++ after
    ∧ (before = [] ∨ before.getLast? = some '&') ∧ (after = [] ∨ after.head? = some '&')
    ∧ '&' ∉ password ∧ '&' ∉ password'

/-- With the same query the URLs are the same. -/
theorem DiffersInQuery.eq_of_queryChars (h : u.DiffersInQuery v)
    (hquery : u.queryChars = v.queryChars) : u = v := by
  obtain ⟨query, query', _, _, _, _, hu, rfl, _⟩ := h
  have hchars : query.chars = query'.chars := by
    unfold queryChars at hquery
    rw [hu] at hquery
    exact hquery
  rw [← Spelling.ext_chars hchars, ← hu]

theorem DiffersInUserinfo.hosts_eq (h : u.DiffersInUserinfo v) :
    u.scheme = v.scheme ∧ u.host = v.host ∧ u.more = v.more ∧ u.path = v.path
      ∧ u.query = v.query := by
  obtain ⟨_, _, _, _, rfl⟩ := h
  exact ⟨rfl, rfl, rfl, rfl, rfl⟩

theorem DiffersInUserinfo.user_eq (h : u.DiffersInUserinfo v) : u.user = v.user := by
  obtain ⟨_, _, _, hu, rfl⟩ := h
  unfold user
  rw [hu]
  rfl

/-- **A password in front of the hosts** is shown where the URL is not masked. -/
theorem DiffersInUserinfo.eq_of_text (h : u.DiffersInUserinfo v) (heq : u.text = v.text) :
    u = v := by
  obtain ⟨user, password, password', hu, rfl⟩ := h
  obtain ⟨_, hnetloc, _⟩ := assembled_inj (fun _ hc => u.isInNetloc_of_mem hc)
    (fun _ hc => ConnectionUrl.isInNetloc_of_mem _ hc) u.head_tail (head_tail _) heq
  unfold netloc at hnetloc
  rw [hu] at hnetloc
  have hinfo := (append_inj_last (notMem_of_all u.all_hostsText (by decide))
    (notMem_of_all (all_hostsText _) (by decide)) hnetloc).1
  have hpassword : password.chars = password'.chars :=
    (append_inj_first (user.notMem (by decide)) (user.notMem (by decide)) hinfo).2
  rw [← Spelling.ext_chars hpassword, ← hu]

/-- Whether the port can be read depends on the hosts. -/
theorem portReadable_congr (hhost : u.host = v.host) (hmore : u.more = v.more) :
    u.PortReadable ↔ v.PortReadable := by
  unfold PortReadable hosts
  rw [hhost, hmore]

theorem hostsShown_congr (hhost : u.host = v.host) (hmore : u.more = v.more) :
    u.hostsShown = v.hostsShown := by
  unfold hostsShown hostChars lastHost hosts
  simp only [hhost, hmore]

/-- URLs with different passwords are masked alike. -/
theorem DiffersInUserinfo.masked_eq (h : u.DiffersInUserinfo v) (hosts : List Char) :
    u.masked hosts = v.masked hosts := by
  obtain ⟨hscheme, _, _, hpath, hquery⟩ := h.hosts_eq
  refine masked_congr (by rw [hscheme]) h.user_eq ?_ ?_
  · unfold pathText
    rw [hpath]
  · unfold queryChars
    rw [hquery]

end ConnectionUrl

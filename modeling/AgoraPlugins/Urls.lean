import Mathlib.Data.List.Basic

/-!
# URLs, taken apart

What `urllib.parse` makes of a URL. `urlsplit` cuts the text at the first of each separator, and
what the result says about its netloc is found by cutting again: at the last at sign, at a bracket,
at a colon. It raises where the brackets of the netloc are not those of one address, and reading
the port raises where this is not a number that a port can have.

The texts are in ASCII, as those of URLs are; the check of the netloc that is about other
characters is left out.
-/

namespace Url

/-! ## Cutting texts -/

/-- **`str.partition`**: what is before the first separator, and what is after it, if there is
one. -/
def partition (sep : Char) : List Char → List Char × Option (List Char)
  | [] => ([], none)
  | c :: cs =>
    if c = sep then ([], some cs) else (c :: (partition sep cs).1, (partition sep cs).2)

/-- **`str.rpartition`**: what is before the last separator, if there is one, and what is after
it. -/
def rpartition (sep : Char) : List Char → Option (List Char) × List Char
  | [] => (none, [])
  | c :: cs =>
    match (rpartition sep cs).1 with
    | some before => (some (c :: before), (rpartition sep cs).2)
    | none => if c = sep then (some [], cs) else (none, c :: cs)

section Cutting

variable {sep : Char} {a a' b b' : List Char}

theorem partition_append (h : sep ∉ a) : partition sep (a ++ sep :: b) = (a, some b) := by
  induction a with
  | nil => exact if_pos rfl
  | cons c a ih =>
    have hc : c ≠ sep := fun heq => h (heq ▸ List.mem_cons_self)
    rw [List.cons_append, partition, if_neg hc, ih (fun hmem => h (List.mem_cons_of_mem c hmem))]

theorem partition_of_notMem (h : sep ∉ a) : partition sep a = (a, none) := by
  induction a with
  | nil => rfl
  | cons c a ih =>
    have hc : c ≠ sep := fun heq => h (heq ▸ List.mem_cons_self)
    rw [partition, if_neg hc, ih (fun hmem => h (List.mem_cons_of_mem c hmem))]

theorem rpartition_of_notMem (h : sep ∉ a) : rpartition sep a = (none, a) := by
  induction a with
  | nil => rfl
  | cons c a ih =>
    have hc : c ≠ sep := fun heq => h (heq ▸ List.mem_cons_self)
    rw [rpartition, ih (fun hmem => h (List.mem_cons_of_mem c hmem))]
    exact if_neg hc

theorem rpartition_append (h : sep ∉ b) : rpartition sep (a ++ sep :: b) = (some a, b) := by
  induction a with
  | nil =>
    rw [List.nil_append, rpartition, rpartition_of_notMem h]
    exact if_pos rfl
  | cons c a ih => rw [List.cons_append, rpartition, ih]

/-- Texts that are equal are so on both sides of their first separators. -/
theorem append_inj_first (ha : sep ∉ a) (ha' : sep ∉ a') (h : a ++ sep :: b = a' ++ sep :: b') :
    a = a' ∧ b = b' := by
  have hcut := congrArg (partition sep) h
  rw [partition_append ha, partition_append ha'] at hcut
  exact ⟨congrArg Prod.fst hcut, Option.some.inj (congrArg Prod.snd hcut)⟩

/-- Texts that are equal are so on both sides of their last separators. -/
theorem append_inj_last (hb : sep ∉ b) (hb' : sep ∉ b') (h : a ++ sep :: b = a' ++ sep :: b') :
    a = a' ∧ b = b' := by
  have hcut := congrArg (rpartition sep) h
  rw [rpartition_append hb, rpartition_append hb'] at hcut
  exact ⟨Option.some.inj (congrArg Prod.fst hcut), congrArg Prod.snd hcut⟩

/-- A text is cut where its characters end to be of one kind. -/
theorem span_append {p : Char → Bool} (ha : ∀ c ∈ a, p c = true) (hb : ∀ c ∈ b.head?, p c = false) :
    (a ++ b).takeWhile p = a ∧ (a ++ b).dropWhile p = b := by
  rw [List.takeWhile_append_of_pos ha, List.dropWhile_append_of_pos ha]
  cases b with
  | nil => simp
  | cons c cs =>
    have hc : p c = false := hb c rfl
    rw [List.takeWhile_cons_of_neg (by simp [hc]), List.dropWhile_cons_of_neg (by simp [hc]),
      List.append_nil]
    exact ⟨rfl, rfl⟩

theorem append_inj_span {p : Char → Bool} (ha : ∀ c ∈ a, p c = true) (ha' : ∀ c ∈ a', p c = true)
    (hb : ∀ c ∈ b.head?, p c = false) (hb' : ∀ c ∈ b'.head?, p c = false)
    (h : a ++ b = a' ++ b') : a = a' ∧ b = b' := by
  refine ⟨?_, ?_⟩
  · rw [← (span_append ha hb).1, h, (span_append ha' hb').1]
  · rw [← (span_append ha hb).2, h, (span_append ha' hb').2]

end Cutting

/-! ## Letters and digits -/

section Letters

variable {c : Char}

theorem isLower_iff : c.isLower = true ↔ 97 ≤ c.toNat ∧ c.toNat ≤ 122 := by
  show (decide ('a'.val ≤ c.val) && decide (c.val ≤ 'z'.val)) = true ↔ _
  rw [Bool.and_eq_true, decide_eq_true_eq, decide_eq_true_eq, UInt32.le_iff_toNat_le,
    UInt32.le_iff_toNat_le]
  rfl

theorem isUpper_iff : c.isUpper = true ↔ 65 ≤ c.toNat ∧ c.toNat ≤ 90 := by
  show decide ('A'.val ≤ c.val ∧ c.val ≤ 'Z'.val) = true ↔ _
  rw [decide_eq_true_eq, UInt32.le_iff_toNat_le, UInt32.le_iff_toNat_le]
  rfl

theorem isDigit_iff : c.isDigit = true ↔ 48 ≤ c.toNat ∧ c.toNat ≤ 57 := by
  show (decide ('0'.val ≤ c.val) && decide (c.val ≤ '9'.val)) = true ↔ _
  rw [Bool.and_eq_true, decide_eq_true_eq, decide_eq_true_eq, UInt32.le_iff_toNat_le,
    UInt32.le_iff_toNat_le]
  rfl

theorem isAlpha_of_isLower (h : c.isLower = true) : c.isAlpha = true := by
  show (c.isUpper || c.isLower) = true
  rw [h, Bool.or_true]

theorem isAlphanum_of_isLower (h : c.isLower = true) : c.isAlphanum = true := by
  show (c.isAlpha || c.isDigit) = true
  rw [isAlpha_of_isLower h, Bool.true_or]

end Letters

/-! ## Addresses in brackets -/

def isHexDigit (c : Char) : Bool := c.isDigit || ('a' ≤ c && c ≤ 'f') || ('A' ≤ c && c ≤ 'F')

/-- A part of an IPv4 address: a number up to 255 in at most three digits, of which the first is
not a zero. -/
def isOctet (cs : List Char) : Bool :=
  cs ≠ [] && cs.all Char.isDigit && cs.length ≤ 3 && (cs.length = 1 || cs.head? ≠ some '0')
    && Nat.ofDigitChars 10 cs 0 ≤ 255

def isIPv4 (cs : List Char) : Bool := (cs.splitOn '.').length = 4 && (cs.splitOn '.').all isOctet

def isHextet (cs : List Char) : Bool := cs ≠ [] && cs.length ≤ 4 && cs.all isHexDigit

/-- The parts of an IPv6 address between its colons. An IPv4 address at the end stands for two. -/
def hextets (cs : List Char) : Option (List (List Char)) :=
  let parts := cs.splitOn ':'
  if parts.length < 3 then none
  else if (parts.getLastD []).contains '.' then
    if isIPv4 (parts.getLastD []) then some (parts.dropLast ++ [['0'], ['0']]) else none
  else some parts

/-- The parts are those of one address: eight, or fewer and an empty one inside for those that
are left out. The first and the last part are empty only next to this. -/
def areHextets (parts : List (List Char)) : Bool :=
  let inner := parts.tail.dropLast
  parts.length ≤ 9 && parts.all (fun part => part = [] || isHextet part)
    && match inner.count [] with
      | 0 => parts.length = 8 && parts.head? ≠ some [] && parts.getLast? ≠ some []
      | 1 => (parts.filter (fun part => part ≠ [])).length ≤ 7
        && (parts.head? ≠ some [] || inner.head? = some [])
        && (parts.getLast? ≠ some [] || inner.getLast? = some [])
      | _ => false

/-- **`ipaddress.IPv6Address`** takes the text: an address, and a zone after a percent sign. -/
def isIPv6 (cs : List Char) : Bool :=
  (partition '%' cs).2.all (fun zone => zone ≠ [] && !zone.contains '%')
    && (hextets (partition '%' cs).1).any areHextets

/-- An address of a version to come. -/
def isFuture (cs : List Char) : Bool :=
  match cs with
  | [] => false
  | _ :: rest =>
    let version := partition '.' rest
    version.1 ≠ [] && version.1.all isHexDigit && version.2.any (fun rest => rest ≠ [])

/-- **`_check_bracketed_host`**. -/
def checkBracketedHost (host : List Char) : Bool :=
  if host.head? = some 'v' then isFuture host else isIPv6 host

/-- **`_check_bracketed_netloc`**. -/
def checkBracketedNetloc (netloc : List Char) : Bool :=
  let info := (rpartition '@' netloc).2
  match (partition '[' info).2 with
  | some bracketed =>
    let host := partition ']' bracketed
    (partition '[' info).1 = [] && (host.2.getD []).head?.all (· = ':')
      && checkBracketedHost host.1
  | none => checkBracketedHost (partition ':' info).1

/-- What `urlsplit` asks of a netloc. -/
def checkNetloc (netloc : List Char) : Bool :=
  if netloc.contains '[' ≠ netloc.contains ']' then false
  else if netloc.contains '[' then checkBracketedNetloc netloc
  else true

/-! ## `urlsplit` -/

/-- **`SplitResult`**. -/
structure SplitResult where
  scheme : List Char
  netloc : List Char
  path : List Char
  query : List Char
  fragment : List Char
  deriving DecidableEq

def isControlOrSpace (c : Char) : Bool := c.toNat ≤ 32

def isUnsafe (c : Char) : Bool := c = '\t' || c = '\r' || c = '\n'

def isSchemeChar (c : Char) : Bool := c.isAlphanum || c = '+' || c = '-' || c = '.'

/-- The scheme, if there is one, and what follows. -/
def splitScheme (url : List Char) : List Char × List Char :=
  match partition ':' url with
  | (c :: scheme, some rest) =>
    if c.isAlpha && (c :: scheme).all isSchemeChar then ((c :: scheme).map Char.toLower, rest)
    else ([], url)
  | _ => ([], url)

/-- The netloc ends before the first of these. -/
def isInNetloc (c : Char) : Bool := c ≠ '/' && c ≠ '?' && c ≠ '#'

/-- The netloc, if there is one, and what follows. -/
def splitNetloc : List Char → List Char × List Char
  | c :: d :: rest =>
    if c = '/' ∧ d = '/' then (rest.takeWhile isInNetloc, rest.dropWhile isInNetloc)
    else ([], c :: d :: rest)
  | url => ([], url)

/-- **`urlsplit`**, `none` where it raises. -/
def urlsplit (url : List Char) : Option SplitResult :=
  let scheme := splitScheme ((url.dropWhile isControlOrSpace).filter (fun c => !isUnsafe c))
  let netloc := splitNetloc scheme.2
  let fragment := partition '#' netloc.2
  let query := partition '?' fragment.1
  if checkNetloc netloc.1 then
    some ⟨scheme.1, netloc.1, query.1, query.2.getD [], fragment.2.getD []⟩
  else none

/-- A host, in brackets or not, and what is after a colon behind it. -/
def splitHost (info : List Char) : List Char × Option (List Char) :=
  match (partition '[' info).2 with
  | some bracketed =>
    let host := partition ']' bracketed
    (host.1, (partition ':' (host.2.getD [])).2)
  | none => partition ':' info

namespace SplitResult

variable (r : SplitResult)

/-- The user name and the password. -/
def userinfo : Option (List Char) × Option (List Char) :=
  match (rpartition '@' r.netloc).1 with
  | none => (none, none)
  | some info => (some (partition ':' info).1, (partition ':' info).2)

/-- **`username`**. -/
def username : Option (List Char) := r.userinfo.1

/-- **`password`**. -/
def password : Option (List Char) := r.userinfo.2

/-- The host, and what is after a colon. -/
def hostinfo : List Char × Option (List Char) := splitHost (rpartition '@' r.netloc).2

end SplitResult

/-- A host in lower case, up to the zone. -/
def lowerHost (host : List Char) : List Char :=
  (partition '%' host).1.map Char.toLower
    ++ match (partition '%' host).2 with
      | none => []
      | some zone => '%' :: zone

/-- The number of a port, `none` where reading it raises. No text of more than 4300 digits is
read. -/
def readPort (cs : List Char) : Option ℕ :=
  if cs.all Char.isDigit && cs.length ≤ 4300 && Nat.ofDigitChars 10 cs 0 ≤ 65535 then
    some (Nat.ofDigitChars 10 cs 0)
  else none

namespace SplitResult

variable (r : SplitResult)

/-- **`hostname`**. -/
def hostname : Option (List Char) :=
  if r.hostinfo.1 = [] then none else some (lowerHost r.hostinfo.1)

/-- **`port`**, `none` where reading it raises. -/
def port : Option (Option ℕ) :=
  match r.hostinfo.2 with
  | none => some none
  | some [] => some none
  | some (c :: cs) => (readPort (c :: cs)).map some

/-- **`geturl`**, of a result with a netloc. -/
def geturl : List Char :=
  (if r.scheme = [] then [] else r.scheme ++ [':']) ++ '/' :: '/' :: r.netloc
    ++ (if r.path = [] ∨ r.path.head? = some '/' then r.path else '/' :: r.path)
    ++ (if r.query = [] then [] else '?' :: r.query)
    ++ (if r.fragment = [] then [] else '#' :: r.fragment)

end SplitResult

end Url

import AgoraPlugins.Double
import AgoraPlugins.Reply

/-!
# Timestamps of the Storage Write sink

A `TIMESTAMP` is sent as microseconds since 1970. The sink makes them of the seconds that
`datetime.timestamp` returns, which are a double, times a million, which is rounded again; what is
behind the point then is cut off.

The first rounding is to a unit that depends on the power of two below the seconds, the second one
to a unit that depends on the one below the microseconds. A million is a little less than two to
the power of twenty, so for most numbers the unit of the second is large enough to make up for the
first. For seconds that are less than five percent above a power of two it is not.
-/

namespace TimestampCoercion

/-! ## Dates and times -/

/-- Microseconds of a day. -/
def dayMicros : ℕ := 86400 * 10 ^ 6

/-- **A `datetime`**: its day, counted from the first of January of the year 1, the time of the day,
and what it is ahead of UTC, if it says so, both in microseconds. -/
structure DateTime where
  ordinal : ℕ
  one_le_ordinal : 1 ≤ ordinal
  ordinal_le : ordinal ≤ 3652059
  time : ℕ
  time_lt : time < dayMicros
  utcoffset : Option ℤ
  offset_lt : ∀ offset ∈ utcoffset, offset.natAbs < dayMicros

/-- The day of the first of January 1970. -/
def epochOrdinal : ℕ := 719163

namespace DateTime

/-- **Microseconds since 1970**, in UTC if there is no offset. -/
def micros (value : DateTime) : ℤ :=
  (value.ordinal - epochOrdinal) * dayMicros + value.time - value.utcoffset.getD 0

/-- `timestamp`: the quotient of the microseconds by a million, rounded. -/
def timestamp (value : DateTime) : Double :=
  .ofDecimal (value.micros < 0) value.micros.natAbs (-6)

/-- The constructor, which raises a `ValueError` for what is out of range. -/
def ofParts (ordinal time : ℕ) (utcoffset : Option ℤ) : Option DateTime :=
  if h : 1 ≤ ordinal ∧ ordinal ≤ 3652059 ∧ time < dayMicros
      ∧ ∀ offset ∈ utcoffset, offset.natAbs < dayMicros then
    some ⟨ordinal, h.1, h.2.1, time, h.2.2.1, utcoffset, h.2.2.2⟩
  else none

end DateTime

def isLeap (year : ℕ) : Bool := year % 4 = 0 ∧ (year % 100 ≠ 0 ∨ year % 400 = 0)

def daysInMonth (year month : ℕ) : ℕ :=
  if month = 2 ∧ isLeap year then 29
  else [31, 28, 31, 30, 31, 30, 31, 31, 30, 31, 30, 31].getD (month - 1) 0

/-- `_ymd2ord`. -/
def ymdToOrdinal (year month day : ℕ) : ℕ :=
  (year - 1) * 365 + (year - 1) / 4 - (year - 1) / 100 + (year - 1) / 400
    + ((List.range' 1 (month - 1)).map (daysInMonth year)).sum + day

/-- The day of a date, if there is such a date. -/
def dateOrdinal (year month day : ℕ) : Option ℕ :=
  if 1 ≤ year ∧ 1 ≤ month ∧ month ≤ 12 ∧ 1 ≤ day ∧ day ≤ daysInMonth year month then
    some (ymdToOrdinal year month day)
  else none

/-- The Monday of a year's first week. -/
def isoWeekOneMonday (year : ℕ) : ℕ :=
  let first := ymdToOrdinal year 1 1
  let weekday := (first + 6) % 7
  if 3 < weekday then first - weekday + 7 else first - weekday

/-- `_isoweek_to_gregorian`, with the day. -/
def weekOrdinal (year week day : ℕ) : Option ℕ :=
  let first := ymdToOrdinal year 1 1 % 7
  if 1 ≤ year ∧ 1 ≤ week ∧ 1 ≤ day ∧ day < 8
      ∧ (week < 53 ∨ week = 53 ∧ (first = 4 ∨ first = 3 ∧ isLeap year)) then
    some (isoWeekOneMonday year + (week - 1) * 7 + (day - 1))
  else none

/-! ## ISO strings -/

/-- `int` of so many digits, and of nothing else. -/
def digits? (cs : List Char) (n : ℕ) : Option ℕ :=
  if cs.length = n ∧ cs.all Char.isDigit then some (Nat.ofDigitChars 10 cs 0) else none

/-- `_find_isoformat_datetime_separator`. -/
def separatorLocation (s : List Char) : Option ℕ :=
  if s.length = 7 then some 7
  else if s[4]? = some '-' then
    if s[5]? = some 'W' then
      if 8 < s.length ∧ s[8]? = some '-' then
        if s.length = 9 then none
        -- the time of a week may follow its separator
        else if 10 < s.length ∧ (s[10]?.any Char.isDigit) then some 8 else some 10
      else some 8
    else some 10
  else if s[4]? = some 'W' then
    let pos := 7 + ((s.drop 7).takeWhile Char.isDigit).length
    if pos < 9 then some pos else if pos % 2 = 0 then some 7 else some 8
  else some 8

/-- `_parse_isoformat_date`. -/
def parseDate (s : List Char) : Option ℕ := do
  let year ← digits? (s.take 4) 4
  let hasSep := s[4]? = some '-'
  let rest := s.drop (if hasSep then 5 else 4)
  match rest with
  | 'W' :: rest => do
    let week ← digits? (rest.take 2) 2
    match rest.drop 2 with
    | [] => weekOrdinal year week 1
    | c :: cs =>
      let day := if hasSep then cs else c :: cs
      if (c = '-') ↔ hasSep then (digits? day 1).bind (weekOrdinal year week) else none
  | rest => do
    let month ← digits? (rest.take 2) 2
    match rest.drop 2 with
    | [] => none
    | c :: cs =>
      let day := if hasSep then cs else c :: cs
      if (c = '-') ↔ hasSep then (digits? day 2).bind (dateOrdinal year month) else none

/-- The fields of a time, so many at most, and what follows them. -/
def parseFields (hasSep : Bool) : ℕ → List Char → Option (List ℕ × List Char)
  | 0, t => some ([], t)
  | n + 1, t =>
    match digits? (t.take 2) 2, t.drop 2 with
    | none, _ => none
    | some field, [] => some ([field], [])
    | some field, c :: cs =>
      if n = 0 ∨ c = '.' ∨ c = ',' then some ([field], c :: cs)
      else if hasSep ∧ c ≠ ':' then none
      else (parseFields hasSep n (if hasSep then cs else c :: cs)).map
        (fun p => (field :: p.1, p.2))

/-- The microseconds of a fraction: six digits, and more that are not looked at. -/
def parseFraction : List Char → Option ℕ
  | [] => some 0
  | c :: ds =>
    if (c = '.' ∨ c = ',') ∧ ds ≠ [] ∧ ds.all Char.isDigit then
      some (Nat.ofDigitChars 10 (ds.take 6) 0 * 10 ^ (6 - ds.length))
    else none

/-- `_parse_hh_mm_ss_ff`. -/
def parseHhMmSsFf (t : List Char) : Option (ℕ × ℕ × ℕ × ℕ) := do
  let (fields, rest) ← parseFields (t[2]? = some ':') 3 t
  let micros ← parseFraction rest
  some (fields.getD 0 0, fields.getD 1 0, fields.getD 2 0, micros)

/-- The microseconds of a time. -/
def timeMicros (p : ℕ × ℕ × ℕ × ℕ) : ℕ := ((p.1 * 60 + p.2.1) * 60 + p.2.2.1) * 10 ^ 6 + p.2.2.2

/-- A time that a clock shows. -/
def clockTime (p : ℕ × ℕ × ℕ × ℕ) : Option ℕ :=
  if p.1 < 24 ∧ p.2.1 < 60 ∧ p.2.2.1 < 60 then some (timeMicros p) else none

/-- An offset, with its sign. -/
def parseOffset (negative : Bool) (t : List Char) : Option ℤ := do
  let offset ← if t.length ∈ [0, 1, 3] then none else parseHhMmSsFf t
  pure (if negative then -(timeMicros offset : ℤ) else timeMicros offset)

/-- `_parse_isoformat_time`: the first minus sign begins the offset, or else the first plus sign. -/
def parseTime (t : List Char) : Option (ℕ × Option ℤ) :=
  let sign := if '-' ∈ t then '-' else '+'
  let clock := t.takeWhile (fun c => c ≠ sign)
  match t.dropWhile (fun c => c ≠ sign) with
  | [] =>
    if clock.getLast? = some 'Z' then
      ((parseHhMmSsFf clock.dropLast).bind clockTime).map (fun time => (time, some 0))
    else ((parseHhMmSsFf clock).bind clockTime).map (fun time => (time, none))
  | _ :: offset => do
    let time ← (parseHhMmSsFf clock).bind clockTime
    let utcoffset ← parseOffset (sign = '-') offset
    some (time, some utcoffset)

/-- **`datetime.fromisoformat`**, or `none` where it raises a `ValueError`. -/
def fromisoformat (s : List Char) : Option DateTime := do
  let location ← if s.length < 7 then none else separatorLocation s
  let ordinal ← parseDate (s.take location)
  match s.drop location with
  | [] => DateTime.ofParts ordinal 0 none
  | _ :: t => do
    let (time, utcoffset) ← parseTime t
    DateTime.ofParts ordinal time utcoffset

/-! ## The coercion -/

/-- A value of a row. -/
inductive Value where
  | datetime (value : DateTime)
  | str (value : List Char)
  | bool (value : Bool)
  | int (value : ℤ)
  | other

/-- `value.replace("Z", "+00:00")`. -/
def replaceZ (s : List Char) : List Char :=
  s.flatMap (fun c => if c = 'Z' then "+00:00".toList else [c])

/-- What is raised for a value that is no time, where `path` is as `repr` writes it. -/
def typeError (path : String) : Exc :=
  .exception "TypeError" ("BigQuery TIMESTAMP field " ++ path
    ++ " expects datetime/int/ISO-8601 string input.")

/-- `int` of a double, which is not a NaN here. -/
def int (x : Double) : Except Exc ℤ :=
  match x.trunc with
  | some n => .ok n
  | none => .error (.exception "OverflowError" "cannot convert float infinity to integer")

/-- `int(value.timestamp() * _MICROS_PER_SECOND)`. -/
def microsOf (value : DateTime) : Except Exc ℤ := int ((value.timestamp).mulNat (10 ^ 6))

/-- **`_coerce_timestamp`.** A value without an offset is taken to be in UTC. What `repr` makes of a
path is a parameter. -/
def coerceTimestamp (repr : String → String) (value : Value) (path : String) : Except Exc ℤ :=
  match value with
  | .datetime value => microsOf value
  | .str value =>
    match fromisoformat (replaceZ value) with
    | none => .error (typeError (repr path))
    | some parsed => microsOf parsed
  | .int value => .ok value
  | .bool _ | .other => .error (typeError (repr path))

open Double

/-! ## Two roundings -/

/-- The microseconds that come of the seconds, as they are rounded. -/
def roundedMicros (n : ℕ) : ℕ :=
  nearest (nearest (n * 2 ^ fractionBits) (10 ^ 6) * 10 ^ 6) 1 / 2 ^ fractionBits

/-- **The two roundings**, of numbers with so many binary digits after the point. -/
theorem roundedMicros_eq {n m : ℕ} (hm : m ≤ fractionBits) (h₁ : 10 ^ 6 * 2 ^ 52 ≤ n * 2 ^ m)
    (h₂ : n * 2 ^ m < 10 ^ 6 * 2 ^ 53) :
    roundedMicros n = nearest (quotient (n * 2 ^ m) (10 ^ 6) * 10 ^ 6) 1 / 2 ^ m := by
  obtain ⟨s, hs⟩ := Nat.exists_eq_add_of_le hm
  have hpow : 2 ^ fractionBits = 2 ^ m * 2 ^ s := by rw [hs, pow_add]
  have hseconds : nearest (n * 2 ^ fractionBits) (10 ^ 6)
      = 2 ^ s * quotient (n * 2 ^ m) (10 ^ 6) := by
    rw [nearest_quotient (v := s) (by decide), hpow, ← Nat.mul_assoc, Nat.mul_comm (10 ^ 6),
      Nat.mul_comm (n * 2 ^ m), quotient_mul_left (Nat.pow_pos (by decide))]
    · calc 2 ^ (s + 52) * 10 ^ 6 = 10 ^ 6 * 2 ^ 52 * 2 ^ s := by rw [pow_add]; ring
        _ ≤ n * 2 ^ m * 2 ^ s := Nat.mul_le_mul_right _ h₁
        _ = n * 2 ^ fractionBits := by rw [hpow, Nat.mul_assoc]
    · calc n * 2 ^ fractionBits = n * 2 ^ m * 2 ^ s := by rw [hpow, Nat.mul_assoc]
        _ < 10 ^ 6 * 2 ^ 53 * 2 ^ s := Nat.mul_lt_mul_of_pos_right h₂ (Nat.pow_pos (by decide))
        _ = 2 ^ (s + 53) * 10 ^ 6 := by rw [pow_add]; ring
  have hle : 2 ^ 52 ≤ quotient (n * 2 ^ m) (10 ^ 6) * 10 ^ 6 := by
    have hdiv : 2 ^ 52 ≤ n * 2 ^ m / 10 ^ 6 := (Nat.le_div_iff_mul_le (by decide)).2 (by omega)
    unfold quotient
    split_ifs <;> omega
  unfold roundedMicros
  rw [hseconds, Nat.mul_assoc, nearest_two_pow_mul s hle, hpow, Nat.mul_comm (2 ^ m),
    Nat.mul_div_mul_left _ _ (Nat.pow_pos (by decide))]

/-- What the first rounding adds or takes away. -/
theorem quotient_million {N : ℕ} (h : N % 10 ^ 6 ≠ 500000) :
    quotient N (10 ^ 6) * 10 ^ 6 + N % 10 ^ 6
    = N + if N % 10 ^ 6 < 500000 then 0 else 10 ^ 6 := by
  unfold quotient
  split_ifs <;> omega

theorem div_eq_iff {Z M n : ℕ} (hM : 0 < M) : Z / M = n ↔ n * M ≤ Z ∧ Z < n * M + M := by
  rw [Nat.div_eq_iff hM, Nat.mul_comm n M]
  omega

/-- **The second rounding**, of a number just below a power of two. -/
theorem nearest_coarse {N : ℕ} (h₁ : 10 ^ 6 * 2 ^ 52 ≤ N) (h₂ : N < 2 ^ 72)
    (h : N % 10 ^ 6 ≠ 500000) : nearest (quotient N (10 ^ 6) * 10 ^ 6) 1
      = 2 ^ 19 * quotient (quotient N (10 ^ 6) * 10 ^ 6) (2 ^ 19) := by
  have hq := quotient_million h
  generalize quotient N (10 ^ 6) = q at hq ⊢
  refine nearest_of_binade ?_ ?_
  · split_ifs at hq <;> omega
  · split_ifs at hq <;> omega

/-- **What the second rounding makes of a number just below a power of two**, that is a multiple of
its unit: the multiple itself, or the one before or after it. -/
theorem quotient_coarse {N P a : ℕ} (hN : N = 2 ^ 19 * a) (hP : P + N % 10 ^ 6
    = N + if N % 10 ^ 6 < 500000 then 0 else 10 ^ 6) (hpos : 10 ^ 6 ≤ N) : quotient P (2 ^ 19)
      = if N % 10 ^ 6 < 2 ^ 18 ∨ 10 ^ 6 - 2 ^ 18 < N % 10 ^ 6 then a
        else if N % 10 ^ 6 = 2 ^ 18 ∨ N % 10 ^ 6 = 10 ^ 6 - 2 ^ 18 then
          (if a % 2 = 0 then a else if N % 10 ^ 6 = 2 ^ 18 then a - 1 else a + 1)
        else if N % 10 ^ 6 < 500000 then a - 1 else a + 1 := by
  have hr : N % 10 ^ 6 < 10 ^ 6 := Nat.mod_lt _ (by decide)
  generalize N % 10 ^ 6 = r at *
  split_ifs at hP ⊢ <;> apply quotient_eq (by decide) <;> omega

/-- **Where there are digits left**, the result is right unless the second rounding takes one
away. -/
theorem coarse_iff_of_le {n m : ℕ} (hm : 20 ≤ m) (h₁ : 10 ^ 6 * 2 ^ 52 ≤ n * 2 ^ m)
    (h₂ : n * 2 ^ m < 2 ^ 72) (h : n * 2 ^ m % 10 ^ 6 ≠ 500000) :
    nearest (quotient (n * 2 ^ m) (10 ^ 6) * 10 ^ 6) 1 / 2 ^ m = n
      ↔ n * 2 ^ m % 10 ^ 6 ≤ 2 ^ 18 ∨ 500000 < n * 2 ^ m % 10 ^ 6 := by
  obtain ⟨i, rfl⟩ := Nat.exists_eq_add_of_le hm
  have hN : n * 2 ^ (20 + i) = 2 ^ 19 * (2 * (n * 2 ^ i)) := by rw [pow_add]; ring
  have hM : 2 ^ 20 ≤ 2 ^ (20 + i) := Nat.pow_le_pow_right (by decide) hm
  rw [nearest_coarse h₁ h₂ h, quotient_coarse hN (quotient_million h) (by omega),
    div_eq_iff (by omega)]
  have heven : 2 * (n * 2 ^ i) % 2 = 0 := Nat.mul_mod_right 2 _
  have hr : n * 2 ^ (20 + i) % 10 ^ 6 < 10 ^ 6 := Nat.mod_lt _ (by decide)
  generalize 2 * (n * 2 ^ i) = a at *
  generalize n * 2 ^ (20 + i) = N at *
  generalize N % 10 ^ 6 = r at *
  generalize 2 ^ (20 + i) = M at *
  split_ifs <;> omega

/-- **Where there are none**, the result is right just when both roundings give back the number. -/
theorem coarse_iff_of_lt {n m : ℕ} (hm : m < 20) (h₁ : 10 ^ 6 * 2 ^ 52 ≤ n * 2 ^ m)
    (h₂ : n * 2 ^ m < 2 ^ 72) (h : n * 2 ^ m % 10 ^ 6 ≠ 500000) :
    nearest (quotient (n * 2 ^ m) (10 ^ 6) * 10 ^ 6) 1 / 2 ^ m = n
      ↔ 2 ^ 19 ∣ n * 2 ^ m ∧ (n * 2 ^ m % 10 ^ 6 < 2 ^ 18
        ∨ 10 ^ 6 - 2 ^ 18 < n * 2 ^ m % 10 ^ 6 ∨ (n * 2 ^ m % 10 ^ 6 = 2 ^ 18
          ∨ n * 2 ^ m % 10 ^ 6 = 10 ^ 6 - 2 ^ 18) ∧ 2 ^ 20 ∣ n * 2 ^ m) := by
  obtain ⟨i, hi⟩ := Nat.exists_eq_add_of_le (Nat.le_of_lt_succ hm)
  have hM : 2 ^ 19 = 2 ^ i * 2 ^ m := by rw [← pow_add, Nat.add_comm, ← hi]
  have hexact : ∀ t, 2 ^ 19 * t / 2 ^ m = n ↔ 2 ^ 19 * t = n * 2 ^ m := fun t => by
    rw [hM, Nat.mul_right_comm, Nat.mul_div_cancel _ (Nat.pow_pos (by decide))]
    exact (Nat.mul_left_inj (Nat.pow_pos (by decide)).ne').symm
  rw [nearest_coarse h₁ h₂ h, hexact]
  by_cases hdvd : 2 ^ 19 ∣ n * 2 ^ m
  · obtain ⟨a, ha⟩ := hdvd
    have hr : n * 2 ^ m % 10 ^ 6 < 10 ^ 6 := Nat.mod_lt _ (by decide)
    rw [quotient_coarse ha (quotient_million h) (by omega)]
    generalize n * 2 ^ m = N at *
    generalize N % 10 ^ 6 = r at *
    split_ifs <;> omega
  · exact iff_of_false (fun heq => hdvd ⟨_, heq.symm⟩) (fun hboth => hdvd hboth.1)

/-- **The second rounding of any other number.** What is rounded may be smaller than the power of
two that the number is just above. -/
theorem nearest_fine {N : ℕ} (h₁ : 2 ^ 72 ≤ N) (h₂ : N < 10 ^ 6 * 2 ^ 53)
    (h : N % 10 ^ 6 ≠ 500000) : ∃ t, nearest (quotient N (10 ^ 6) * 10 ^ 6) 1 = 2 ^ 19 * t
      ∧ (2 ^ 20 ∣ N → 2 ^ 19 * t = N) ∧ 2 ^ 20 ∣ 2 ^ 19 * t := by
  have hq := quotient_million h
  generalize quotient N (10 ^ 6) = q at hq ⊢
  by_cases hlt : q * 10 ^ 6 < 2 ^ 72
  · refine ⟨2 ^ 53, ?_, ?_, ⟨2 ^ 52, by norm_num⟩⟩
    · rw [nearest_of_binade (v := 19) (by split_ifs at hq <;> omega) hlt]
      have hround : quotient (q * 10 ^ 6) (2 ^ 19) = 2 ^ 53 := by
        apply quotient_eq (by decide) <;> split_ifs at hq <;> omega
      rw [hround]
    · rintro ⟨b, rfl⟩
      split_ifs at hq <;> omega
  · rw [nearest_of_binade (v := 20) (not_lt.1 hlt) (by split_ifs at hq <;> omega)]
    refine ⟨2 * quotient (q * 10 ^ 6) (2 ^ 20), by ring, ?_, ⟨_, by ring⟩⟩
    rintro ⟨b, rfl⟩
    have hround : quotient (q * 10 ^ 6) (2 ^ 20) = b := by
      apply quotient_eq (by decide) <;> split_ifs at hq <;> omega
    rw [hround]
    ring

theorem mod_million_ne {n m : ℕ} (hm : 6 ≤ m) : n * 2 ^ m % 10 ^ 6 ≠ 500000 := by
  obtain ⟨i, rfl⟩ := Nat.exists_eq_add_of_le hm
  have hN : n * 2 ^ (6 + i) = 2 ^ 6 * (n * 2 ^ i) := by rw [pow_add]; ring
  omega

theorem dvd_mul_pow_iff {n m s : ℕ} (h : m ≤ s) : 2 ^ s ∣ n * 2 ^ m ↔ 2 ^ (s - m) ∣ n := by
  rw [show 2 ^ s = 2 ^ (s - m) * 2 ^ m by rw [← pow_add, Nat.sub_add_cancel h]]
  exact Nat.mul_dvd_mul_iff_right (Nat.pow_pos (by decide))

/-! ## When it is exact -/

/-- What is left of a number by millions, its last digits taken to be those of its double. -/
def drift (n : ℕ) : ℕ := n * 2 ^ (71 - Nat.log 2 n) % 10 ^ 6

/-- **The second rounding undoes the first.** Up to `2 ^ 52` microseconds it may also be too
large, as what is too much is cut off. -/
def Undone (n : ℕ) : Prop :=
  if Nat.log 2 n < 52 then drift n ≤ 2 ^ 18 ∨ 500000 < drift n
  else drift n < 2 ^ 18 ∨ 10 ^ 6 - 2 ^ 18 < drift n
    ∨ (drift n = 2 ^ 18 ∨ drift n = 10 ^ 6 - 2 ^ 18) ∧ 2 ^ (Nat.log 2 n - 51) ∣ n

instance (n : ℕ) : Decidable (Undone n) := by
  unfold Undone
  infer_instance

/-- **The numbers that come out right**: they have fifty-three digits, and unless the seconds are
some way above a power of two, the second rounding undoes the first. -/
structure Exact (n : ℕ) : Prop where
  digits : 2 ^ (Nat.log 2 n - 52) ∣ n
  undone : 10 ^ 6 * 2 ^ Nat.log 2 n ≤ n * 2 ^ 19 → Undone n

theorem roundedMicros_coarse {n : ℕ} (hn : n ≠ 0) (hlt : n < 2 ^ 58)
    (h : 10 ^ 6 * 2 ^ Nat.log 2 n ≤ n * 2 ^ 19) : roundedMicros n = n ↔ Exact n := by
  have hk : Nat.log 2 n < 58 := Nat.log_lt_of_lt_pow hn hlt
  have hupper : n < 2 ^ (Nat.log 2 n + 1) := Nat.lt_pow_succ_log_self Nat.one_lt_two n
  have hiff : Exact n ↔ 2 ^ (Nat.log 2 n - 52) ∣ n ∧ Undone n :=
    ⟨fun he => ⟨he.digits, he.undone h⟩, fun he => ⟨he.1, fun _ => he.2⟩⟩
  rw [hiff]
  unfold Undone drift
  generalize hlog : Nat.log 2 n = k at *
  have hsplit : 2 ^ k * 2 ^ (71 - k) = 2 ^ 71 := by rw [← pow_add]; congr 1; omega
  have h₁ : 10 ^ 6 * 2 ^ 52 ≤ n * 2 ^ (71 - k) := by
    refine Nat.le_of_mul_le_mul_left ?_ (Nat.pow_pos (n := k) (show 0 < 2 by decide))
    calc 2 ^ k * (10 ^ 6 * 2 ^ 52) = 10 ^ 6 * 2 ^ k * 2 ^ 52 := by ring
      _ ≤ n * 2 ^ 19 * 2 ^ 52 := Nat.mul_le_mul_right _ h
      _ = n * (2 ^ k * 2 ^ (71 - k)) := by rw [hsplit]; ring
      _ = 2 ^ k * (n * 2 ^ (71 - k)) := by ring
  have h₂ : n * 2 ^ (71 - k) < 2 ^ 72 := by
    calc n * 2 ^ (71 - k) < 2 ^ (k + 1) * 2 ^ (71 - k) :=
          Nat.mul_lt_mul_of_pos_right hupper (Nat.pow_pos (by decide))
      _ = 2 ^ 72 := by rw [← pow_add]; congr 1; omega
  have h₃ : n * 2 ^ (71 - k) % 10 ^ 6 ≠ 500000 := mod_million_ne (by omega)
  rw [roundedMicros_eq (m := 71 - k) (by unfold fractionBits; omega) h₁ (by omega)]
  by_cases hsmall : k < 52
  · rw [if_pos hsmall, coarse_iff_of_le (by omega) h₁ h₂ h₃, Nat.sub_eq_zero_of_le hsmall.le,
      pow_zero]
    exact (and_iff_right (one_dvd n)).symm
  · rw [if_neg hsmall, coarse_iff_of_lt (by omega) h₁ h₂ h₃, dvd_mul_pow_iff (by omega),
      dvd_mul_pow_iff (by omega), show 19 - (71 - k) = k - 52 by omega,
      show 20 - (71 - k) = k - 51 by omega]

theorem roundedMicros_fine {n : ℕ} (hn : n ≠ 0) (hlt : n < 2 ^ 58)
    (h : n * 2 ^ 19 < 10 ^ 6 * 2 ^ Nat.log 2 n) : roundedMicros n = n ↔ Exact n := by
  have hk : Nat.log 2 n < 58 := Nat.log_lt_of_lt_pow hn hlt
  have hlower : 2 ^ Nat.log 2 n ≤ n := Nat.pow_log_le_self 2 hn
  have hiff : Exact n ↔ 2 ^ (Nat.log 2 n - 52) ∣ n :=
    ⟨Exact.digits, fun he => ⟨he, fun hle => absurd h (not_lt.2 hle)⟩⟩
  rw [hiff]
  generalize hlog : Nat.log 2 n = k at *
  have hsplit : 2 ^ k * 2 ^ (72 - k) = 2 ^ 72 := by rw [← pow_add]; congr 1; omega
  have h₁ : 2 ^ 72 ≤ n * 2 ^ (72 - k) := by
    rw [← hsplit]
    exact Nat.mul_le_mul_right _ hlower
  have h₂ : n * 2 ^ (72 - k) < 10 ^ 6 * 2 ^ 53 := by
    refine Nat.lt_of_mul_lt_mul_left (a := 2 ^ k) ?_
    calc 2 ^ k * (n * 2 ^ (72 - k)) = n * (2 ^ k * 2 ^ (72 - k)) := by ring
      _ = n * 2 ^ 19 * 2 ^ 53 := by rw [hsplit]; ring
      _ < 10 ^ 6 * 2 ^ k * 2 ^ 53 := Nat.mul_lt_mul_of_pos_right h (by decide)
      _ = 2 ^ k * (10 ^ 6 * 2 ^ 53) := by ring
  have h₃ : n * 2 ^ (72 - k) % 10 ^ 6 ≠ 500000 := mod_million_ne (by omega)
  rw [roundedMicros_eq (m := 72 - k) (by unfold fractionBits; omega) (by omega) h₂]
  obtain ⟨t, ht, hexact, heven⟩ := nearest_fine h₁ h₂ h₃
  rw [ht]
  by_cases hsmall : k ≤ 52
  · have hdvd : 2 ^ 20 ∣ n * 2 ^ (72 - k) :=
      (pow_dvd_pow 2 (by omega)).trans (Nat.dvd_mul_left _ _)
    rw [hexact hdvd, Nat.mul_div_cancel _ (Nat.pow_pos (by decide)), Nat.sub_eq_zero_of_le hsmall,
      pow_zero]
    exact iff_of_true rfl (one_dvd n)
  · obtain ⟨i, hi⟩ := Nat.exists_eq_add_of_le (show 72 - k ≤ 19 by omega)
    have hM : 2 ^ 19 = 2 ^ i * 2 ^ (72 - k) := by rw [← pow_add, Nat.add_comm, ← hi]
    have hdiv : 2 ^ 19 * t / 2 ^ (72 - k) = n ↔ 2 ^ 19 * t = n * 2 ^ (72 - k) := by
      rw [hM, Nat.mul_right_comm, Nat.mul_div_cancel _ (Nat.pow_pos (by decide))]
      exact (Nat.mul_left_inj (Nat.pow_pos (by decide)).ne').symm
    rw [hdiv, show k - 52 = 20 - (72 - k) by omega, ← dvd_mul_pow_iff (by omega)]
    exact ⟨fun heq => heq ▸ heven, hexact⟩

/-- **When the microseconds come out right.** -/
theorem roundedMicros_eq_iff {n : ℕ} (hlt : n < 2 ^ 58) : roundedMicros n = n ↔ Exact n := by
  by_cases hn : n = 0
  · subst hn
    refine iff_of_true ?_ ⟨dvd_zero _, fun h => absurd h (by simp)⟩
    unfold roundedMicros
    rw [Nat.zero_mul, nearest_zero, Nat.zero_mul, nearest_zero, Nat.zero_div]
  · rcases le_or_gt (10 ^ 6 * 2 ^ Nat.log 2 n) (n * 2 ^ 19) with h | h
    · exact roundedMicros_coarse hn hlt h
    · exact roundedMicros_fine hn hlt h

/-! ## Which timestamps are exact -/

theorem natAbs_micros_lt (value : DateTime) : value.micros.natAbs < 2 ^ 58 := by
  have hone := value.one_le_ordinal
  have hle := value.ordinal_le
  have htime := value.time_lt
  have hoffset : (value.utcoffset.getD 0).natAbs < dayMicros := by
    cases hutc : value.utcoffset with
    | none => exact Nat.lt_of_le_of_lt (Nat.zero_le _) htime
    | some offset => exact value.offset_lt offset hutc
  unfold DateTime.micros
  unfold dayMicros epochOrdinal at *
  omega

/-- Nothing is too large for a double. -/
theorem nearest_micros_le {n : ℕ} (hlt : n < 2 ^ 58) (bits : ℕ) :
    nearest (n * 2 ^ bits) (10 ^ 6) ≤ 2 ^ (bits + 58)
      ∧ nearest (nearest (n * 2 ^ bits) (10 ^ 6) * 10 ^ 6) 1 ≤ 2 ^ (bits + 78) := by
  have hseconds : nearest (n * 2 ^ bits) (10 ^ 6) ≤ 2 ^ (bits + 58) := by
    refine nearest_le ((Nat.div_le_self _ _).trans_lt ?_)
    rw [pow_add, Nat.mul_comm]
    exact Nat.mul_lt_mul_of_pos_left hlt (Nat.pow_pos (by decide))
  refine ⟨hseconds, nearest_le ?_⟩
  rw [Nat.div_one, show bits + 78 = bits + 58 + 20 from rfl, pow_add 2 (bits + 58) 20]
  exact (Nat.mul_le_mul_right _ hseconds).trans_lt
    (Nat.mul_lt_mul_of_pos_left (by decide) (Nat.pow_pos (by decide)))

theorem nearest_micros_lt {n : ℕ} (hlt : n < 2 ^ 58) (bits : ℕ) :
    nearest (n * 2 ^ bits) (10 ^ 6) < 2 ^ (bits + 1024)
      ∧ nearest (nearest (n * 2 ^ bits) (10 ^ 6) * 10 ^ 6) 1 < 2 ^ (bits + 1024) := by
  obtain ⟨hseconds, hproduct⟩ := nearest_micros_le hlt bits
  exact ⟨hseconds.trans_lt (Nat.pow_lt_pow_right (by decide) (by omega)),
    hproduct.trans_lt (Nat.pow_lt_pow_right (by decide) (by omega))⟩

theorem unitsOf_micros (n : ℕ) : unitsOf n (-6) = nearest (n * 2 ^ fractionBits) (10 ^ 6) := by
  unfold unitsOf numerator denominator
  rw [show (-6 : ℤ).toNat = 0 from rfl, show (-(-6) : ℤ).toNat = 6 from rfl, pow_zero,
    Nat.mul_one]

theorem unitsOf_micros_fits {n : ℕ} (hlt : n < 2 ^ 58) :
    unitsOf n (-6) < 2 ^ (fractionBits + 1024)
      ∧ nearest (unitsOf n (-6) * 10 ^ 6) 1 < 2 ^ (fractionBits + 1024) := by
  rw [unitsOf_micros]
  exact nearest_micros_lt hlt fractionBits

theorem roundedMicros_eq_floor (n : ℕ) :
    roundedMicros n = nearest (unitsOf n (-6) * 10 ^ 6) 1 / 2 ^ fractionBits := by
  rw [unitsOf_micros, roundedMicros]

theorem int_of_trunc {x : Double} {n : ℤ} (h : x.trunc = some n) : int x = .ok n := by
  unfold int
  rw [h]

theorem if_decide_neg {n r : ℤ} :
    (if decide (n < 0) = true then -r else r) = if n < 0 then -r else r := by
  by_cases hnegative : n < 0
  · rw [if_pos hnegative, if_pos (decide_eq_true hnegative)]
  · rw [if_neg hnegative, if_neg (by rw [decide_eq_true_eq]; exact hnegative)]

/-- **What the sink makes of a `datetime`**: the microseconds as they are rounded, with their
sign. -/
theorem microsOf_eq (value : DateTime) : microsOf value = .ok
    (if value.micros < 0 then -(roundedMicros value.micros.natAbs : ℤ)
      else roundedMicros value.micros.natAbs) := by
  obtain ⟨hsmall, hfits⟩ := unitsOf_micros_fits (natAbs_micros_lt value)
  have htrunc := trunc_mulNat_ofDecimal hsmall hfits (value.micros < 0)
  rw [← roundedMicros_eq_floor, if_decide_neg] at htrunc
  unfold microsOf DateTime.timestamp
  rw [int_of_trunc htrunc]

/-- The value is this `datetime`, or a text for it. -/
def Denotes (value : Value) (dt : DateTime) : Prop :=
  match value with
  | .datetime v => v = dt
  | .str s => fromisoformat (replaceZ s) = some dt
  | _ => False

/-- **When the timestamp is the number of microseconds.** -/
theorem coerceTimestamp_eq_iff (repr : String → String) (path : String) {value : Value}
    {dt : DateTime} (h : Denotes value dt) :
    coerceTimestamp repr value path = .ok dt.micros ↔ Exact dt.micros.natAbs := by
  have hcoerce : coerceTimestamp repr value path = microsOf dt := by
    cases value with
    | datetime v =>
      obtain rfl := h
      rfl
    | str s =>
      have hparsed : fromisoformat (replaceZ s) = some dt := h
      show (match fromisoformat (replaceZ s) with
        | none => Except.error (typeError (repr path))
        | some parsed => microsOf parsed) = microsOf dt
      rw [hparsed]
    | _ => exact h.elim
  rw [hcoerce, microsOf_eq, ← roundedMicros_eq_iff (natAbs_micros_lt dt)]
  rw [Except.ok.injEq]
  split_ifs <;> omega

/-- `repr` of a text with nothing in it to escape. -/
def quoted (text : String) : String := "'" ++ text ++ "'"

/-- Three microseconds after two to the power of thirty-one seconds. -/
def afterSigned32 : DateTime where
  ordinal := 744018
  one_le_ordinal := by decide
  ordinal_le := by decide
  time := 11648000003
  time_lt := by decide
  utcoffset := some 0
  offset_lt := by rintro _ ⟨⟩; decide

theorem not_exact_afterSigned32 : ¬ Exact 2147483648000003 := by
  have hlog : Nat.log 2 2147483648000003 = 50 :=
    Nat.log_eq_of_pow_le_of_lt_pow (by decide) (by decide)
  intro h
  have hundone := h.undone (by rw [hlog]; decide)
  unfold Undone drift at hundone
  rw [hlog] at hundone
  revert hundone
  decide

/-- **One microsecond is missing** on the nineteenth of January 2038. -/
theorem not_coerceTimestamp_afterSigned32 :
    ¬ ∀ (repr : String → String) (path : String) (value : Value) (dt : DateTime),
      Denotes value dt → coerceTimestamp repr value path = .ok dt.micros := by
  intro h
  have hsame := h quoted "row.at" (.datetime afterSigned32) afterSigned32 rfl
  have hmicros : afterSigned32.micros = 2147483648000003 := by decide
  have hcoerce : coerceTimestamp quoted (.datetime afterSigned32) "row.at"
      = microsOf afterSigned32 := rfl
  rw [hcoerce, microsOf_eq, hmicros, Except.ok.injEq, if_neg (by decide)] at hsame
  refine not_exact_afterSigned32 ((roundedMicros_eq_iff (by decide)).1 ?_)
  exact Int.ofNat_inj.1 hsame

/-- A text from May 2021. -/
theorem coerceTimestamp_eq_iff_may :
    ∃ dt, (Denotes (.str "2021-05-01T12:00:00.123456Z".toList) dt)
      ∧ (coerceTimestamp quoted (.str "2021-05-01T12:00:00.123456Z".toList) "row.at"
        = .ok dt.micros ↔ Exact dt.micros.natAbs) := by
  obtain ⟨dt, hdt⟩ : ∃ dt,
      fromisoformat (replaceZ "2021-05-01T12:00:00.123456Z".toList) = some dt :=
    Option.isSome_iff_exists.1 (by decide +kernel)
  exact ⟨dt, hdt, coerceTimestamp_eq_iff quoted "row.at" hdt⟩

end TimestampCoercion

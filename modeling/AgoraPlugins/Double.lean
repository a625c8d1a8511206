import Mathlib.Algebra.Group.Nat.Defs
import Mathlib.Data.List.Basic
import Mathlib.Data.Nat.Log
import Mathlib.Data.Int.Basic
import Mathlib.Tactic.Common
import Mathlib.Tactic.Ring

/-!
# Doubles and their decimal texts

A finite double is a sign and a multiple of `2 ^ -1074`, the smallest there is. Reading a
decimal number rounds it to fifty-three binary digits, half to even; what comes out too
large is infinite.

The text of a double is the shortest decimal number that is read as this double, and of
the shortest ones the nearest. There always is one, since a double is a decimal number
itself (`Double.ofDecimal_shortest`). It is written with a point, or with an exponent
where there would be too many zeros.
-/

namespace Double

/-! ## Rounding -/

/-- A quotient as a natural number, half to even. -/
def quotient (n d : ℕ) : ℕ :=
  if 2 * (n % d) < d ∨ 2 * (n % d) = d ∧ n / d % 2 = 0 then n / d else n / d + 1

/-- A quotient with fifty-three binary digits. -/
def nearest (n d : ℕ) : ℕ :=
  let unit := 2 ^ (Nat.log 2 (n / d) + 1 - 53)
  unit * quotient n (d * unit)

theorem quotient_of_dvd {n d : ℕ} (hd : 0 < d) (h : d ∣ n) : quotient n d = n / d := by
  unfold quotient
  rw [Nat.mod_eq_zero_of_dvd h]
  exact if_pos (.inl (by omega))

theorem quotient_mul_left {c : ℕ} (hc : 0 < c) (n d : ℕ) :
    quotient (c * n) (c * d) = quotient n d := by
  unfold quotient
  rw [Nat.mul_div_mul_left n d hc, Nat.mul_mod_mul_left]
  have hlt : 2 * (c * (n % d)) < c * d ↔ 2 * (n % d) < d := by
    rw [show 2 * (c * (n % d)) = c * (2 * (n % d)) by ring, Nat.mul_lt_mul_left hc]
  have heq : 2 * (c * (n % d)) = c * d ↔ 2 * (n % d) = d := by
    rw [show 2 * (c * (n % d)) = c * (2 * (n % d)) by ring]
    exact Nat.mul_right_inj hc.ne'
  simp only [hlt, heq]

theorem quotient_le {n d b : ℕ} (h : n / d < b) : quotient n d ≤ b := by
  unfold quotient
  split
  · exact h.le
  · exact h

/-- What a quotient lies between. -/
theorem div_cases {n d a : ℕ} (h₁ : 2 * (a * d) ≤ 2 * n + d) (h₂ : 2 * n ≤ 2 * (a * d) + d)
    (hd : 0 < d) : n / d = a ∧ n = a * d + n % d ∨ n / d + 1 = a ∧ n + d = a * d + n % d := by
  have hdiv : n / d * d + n % d = n := Nat.div_add_mod' n d
  have hmod := Nat.mod_lt n hd
  have hle : n / d ≤ a := by
    by_contra hlt
    have hmul := Nat.mul_le_mul_right d (Nat.succ_le_of_lt (not_le.1 hlt))
    rw [Nat.succ_mul] at hmul
    omega
  have hge : a ≤ n / d + 1 := by
    by_contra hlt
    have hmul := Nat.mul_le_mul_right d (Nat.succ_le_of_lt (not_le.1 hlt))
    rw [Nat.succ_mul, Nat.succ_mul] at hmul
    omega
  rcases Nat.eq_or_lt_of_le hle with heq | hlt
  · exact .inl ⟨heq, by rw [← heq, hdiv]⟩
  · have heq : n / d + 1 = a := by omega
    refine .inr ⟨heq, ?_⟩
    rw [← heq, Nat.succ_mul]
    omega

/-- **A quotient** that is less than half away from a number, or half and the number is even. -/
theorem quotient_eq {n d a : ℕ} (hd : 0 < d) (h₁ : 2 * (a * d) ≤ 2 * n + d)
    (h₂ : 2 * n ≤ 2 * (a * d) + d)
    (heven : 2 * (a * d) = 2 * n + d ∨ 2 * n = 2 * (a * d) + d → a % 2 = 0) :
    quotient n d = a := by
  have hmod := Nat.mod_lt n hd
  unfold quotient
  rcases div_cases h₁ h₂ hd with ⟨hdiv, hn⟩ | ⟨hdiv, hn⟩
  · rw [hdiv, if_pos]
    by_cases hhalf : 2 * (n % d) = d
    · exact .inr ⟨hhalf, heven (.inr (by omega))⟩
    · exact .inl (by omega)
  · rw [if_neg, hdiv]
    rintro (hlt | ⟨hhalf, hodd⟩)
    · omega
    · have := heven (.inl (by omega))
      omega

/-- **Rounding looks at the number only**, not at how it is written as a quotient. -/
theorem nearest_mul_left {c : ℕ} (hc : 0 < c) (n d : ℕ) :
    nearest (c * n) (c * d) = nearest n d := by
  unfold nearest
  dsimp only
  rw [Nat.mul_div_mul_left n d hc, Nat.mul_assoc c d, quotient_mul_left hc]

theorem nearest_congr {n d n' d' : ℕ} (hd : 0 < d) (hd' : 0 < d') (h : n * d' = n' * d) :
    nearest n d = nearest n' d' := by
  rw [← nearest_mul_left hd' n d, ← nearest_mul_left hd n' d', Nat.mul_comm d' n, h,
    Nat.mul_comm n' d, Nat.mul_comm d' d]

theorem nearest_zero (d : ℕ) : nearest 0 d = 0 := by
  have hzero : ∀ d, quotient 0 d = 0 := by
    intro d
    unfold quotient
    rw [Nat.zero_mod, Nat.zero_div]
    rcases Nat.eq_zero_or_pos d with rfl | hd
    · rfl
    · exact if_pos (.inl hd)
  unfold nearest
  dsimp only
  rw [hzero, Nat.mul_zero]

/-- A number with few enough digits before its zeros is not rounded. -/
theorem nearest_one {n : ℕ} (h : 2 ^ (Nat.log 2 n + 1 - 53) ∣ n) : nearest n 1 = n := by
  unfold nearest
  dsimp only
  rw [Nat.div_one, Nat.one_mul, quotient_of_dvd (Nat.pow_pos (by decide)) h, Nat.mul_div_cancel' h]

/-- **What is rounded stays as it is.** -/
theorem nearest_nearest (n d : ℕ) : nearest (nearest n d) 1 = nearest n d := by
  apply nearest_one
  unfold nearest
  dsimp only
  generalize hu : Nat.log 2 (n / d) + 1 - 53 = u
  have hlt : n / (d * 2 ^ u) < 2 ^ 53 := by
    rw [← Nat.div_div_eq_div_mul]
    refine Nat.div_lt_of_lt_mul ?_
    rw [← pow_add]
    refine (Nat.lt_pow_succ_log_self Nat.one_lt_two (n / d)).trans_le ?_
    exact Nat.pow_le_pow_right (by decide) (by omega)
  have hle : quotient n (d * 2 ^ u) ≤ 2 ^ 53 := quotient_le hlt
  generalize quotient n (d * 2 ^ u) = q at hle
  rcases hle.lt_or_eq with hq | rfl
  · -- fifty-three digits, with the same unit or a smaller one
    refine dvd_mul_of_dvd_left (pow_dvd_pow 2 ?_) q
    by_cases hzero : 2 ^ u * q = 0
    · rw [hzero]
      simp
    · have hlog : Nat.log 2 (2 ^ u * q) < u + 53 := by
        refine Nat.log_lt_of_lt_pow hzero ?_
        rw [pow_add]
        exact Nat.mul_lt_mul_of_pos_left hq (Nat.pow_pos (by decide))
      omega
  · rw [← pow_add, Nat.log_pow (by decide)]
    exact pow_dvd_pow 2 (by omega)

/-! ## Doubles -/

/-- There are so many binary digits after the point, at most. -/
def fractionBits : ℕ := 1074

/-- **The absolute value of a finite double**, in units of `2 ^ -1074`. -/
structure Magnitude where
  units : ℕ
  exact : nearest units 1 = units
  lt : units < 2 ^ (fractionBits + 1024)

end Double

/-- **A double.** There are two zeros. -/
inductive Double where
  | finite (negative : Bool) (magnitude : Double.Magnitude)
  | infinite (negative : Bool)
  | nan

namespace Double

/-- The number `d * 10 ^ k` in units is this many tenths to some power. -/
def numerator (d : ℕ) (k : ℤ) : ℕ := d * 10 ^ k.toNat * 2 ^ fractionBits

/-- That power of ten. -/
def denominator (k : ℤ) : ℕ := 10 ^ (-k).toNat

/-- A decimal number in units, rounded. -/
def unitsOf (d : ℕ) (k : ℤ) : ℕ := nearest (numerator d k) (denominator k)

/-- **The double that is nearest** to the decimal number `d * 10 ^ k`. -/
def ofDecimal (negative : Bool) (d : ℕ) (k : ℤ) : Double :=
  if h : unitsOf d k < 2 ^ (fractionBits + 1024) then
    .finite negative ⟨unitsOf d k, nearest_nearest _ _, h⟩
  else .infinite negative

/-- The integer part, without the sign. -/
def Magnitude.floor (m : Magnitude) : ℕ := m.units / 2 ^ fractionBits

theorem denominator_pos (k : ℤ) : 0 < denominator k := Nat.pow_pos (by decide)

/-- **Zeros at the end are the same as a larger exponent.** -/
theorem unitsOf_shift (d : ℕ) (k : ℤ) (j : ℕ) : unitsOf (d * 10 ^ j) (k - j) = unitsOf d k := by
  refine nearest_congr (denominator_pos _) (denominator_pos _) ?_
  unfold numerator denominator
  have hpow : j + (k - j).toNat + (-k).toNat = k.toNat + (-(k - j)).toNat := by omega
  calc d * 10 ^ j * 10 ^ (k - j).toNat * 2 ^ fractionBits * 10 ^ (-k).toNat
      = d * 2 ^ fractionBits * 10 ^ (j + (k - j).toNat + (-k).toNat) := by ring
    _ = d * 2 ^ fractionBits * 10 ^ (k.toNat + (-(k - j)).toNat) := by rw [hpow]
    _ = d * 10 ^ k.toNat * 2 ^ fractionBits * 10 ^ (-(k - j)).toNat := by ring

theorem unitsOf_zero (k : ℤ) : unitsOf 0 k = 0 := by
  unfold unitsOf numerator
  rw [Nat.zero_mul, Nat.zero_mul, nearest_zero]

theorem ofDecimal_congr {d d' : ℕ} {k k' : ℤ} (h : unitsOf d k = unitsOf d' k')
    (negative : Bool) : ofDecimal negative d k = ofDecimal negative d' k' := by
  unfold ofDecimal
  simp only [h]

/-! ## The shortest decimal number -/

/-- The exponent of the leading decimal digit. -/
def leading (units : ℕ) : ℤ := (Nat.log 10 (units * 10 ^ 400 / 2 ^ fractionBits) : ℤ) - 400

/-- The two decimal numbers with so many digits on either side of the double, the nearer
one first. -/
def candidates (units digits : ℕ) : List (ℕ × ℤ) :=
  let k := leading units + 1 - digits
  let n := units * 10 ^ (-k).toNat
  let d := 2 ^ fractionBits * 10 ^ k.toNat
  let near := quotient n d
  let other := if near = n / d then near + 1 else n / d
  -- a number that is rounded up to a power of ten has a digit less
  [near, other].map (fun x => if x = 10 ^ digits then (10 ^ (digits - 1), k + 1) else (x, k))

/-- **The digits of a double**, with their exponent. Seventeen are always enough, and the
double itself is a decimal number in any case. -/
def shortest (units : ℕ) : ℕ × ℤ :=
  if units = 0 then (0, 0)
  else (((List.range' 1 17).flatMap (candidates units)).find?
    (fun c => unitsOf c.1 c.2 = units)).getD (units * 5 ^ fractionBits, -fractionBits)

/-- A double is a decimal number. -/
theorem unitsOf_exact (units : ℕ) :
    unitsOf (units * 5 ^ fractionBits) (-fractionBits) = nearest units 1 := by
  refine nearest_congr (denominator_pos _) Nat.one_pos ?_
  unfold numerator denominator
  rw [Int.toNat_neg_natCast, neg_neg, Int.toNat_natCast, pow_zero, Nat.mul_one, Nat.mul_one,
    Nat.mul_assoc, ← Nat.mul_pow]

theorem unitsOf_shortest (m : Magnitude) :
    unitsOf (shortest m.units).1 (shortest m.units).2 = m.units := by
  unfold shortest
  split
  next hzero => rw [hzero, unitsOf_zero]
  next =>
    cases hfind : ((List.range' 1 17).flatMap (candidates m.units)).find?
        (fun c => unitsOf c.1 c.2 = m.units) with
    | none => exact (unitsOf_exact m.units).trans m.exact
    | some c =>
      have hc := List.find?_some hfind
      exact of_decide_eq_true hc

/-- **What is read is what was written.** -/
theorem ofDecimal_shortest (negative : Bool) (m : Magnitude) :
    ofDecimal negative (shortest m.units).1 (shortest m.units).2 = .finite negative m := by
  unfold ofDecimal
  simp only [unitsOf_shortest m]
  rw [dif_pos m.lt]

/-! ## Products and integers -/

/-- A number is rounded in its binade. -/
theorem nearest_of_binade {p v : ℕ} (h₁ : 2 ^ (v + 52) ≤ p) (h₂ : p < 2 ^ (v + 53)) :
    nearest p 1 = 2 ^ v * quotient p (2 ^ v) := by
  have hlog : Nat.log 2 p = v + 52 := Nat.log_eq_of_pow_le_of_lt_pow h₁ h₂
  unfold nearest
  dsimp only
  rw [Nat.div_one, hlog, Nat.one_mul, show v + 52 + 1 - 53 = v by omega]

/-- **A quotient is rounded in its binade.** -/
theorem nearest_quotient {n d v : ℕ} (hd : 0 < d) (h₁ : 2 ^ (v + 52) * d ≤ n)
    (h₂ : n < 2 ^ (v + 53) * d) : nearest n d = 2 ^ v * quotient n (d * 2 ^ v) := by
  have hlog : Nat.log 2 (n / d) = v + 52 :=
    Nat.log_eq_of_pow_le_of_lt_pow ((Nat.le_div_iff_mul_le hd).2 h₁)
      ((Nat.div_lt_iff_lt_mul hd).2 h₂)
  unfold nearest
  dsimp only
  rw [hlog, show v + 52 + 1 - 53 = v by omega]

/-- A larger unit changes nothing about the digits. -/
theorem nearest_two_pow_mul (s : ℕ) {p : ℕ} (h : 2 ^ 52 ≤ p) :
    nearest (2 ^ s * p) 1 = 2 ^ s * nearest p 1 := by
  have hpos : p ≠ 0 := by
    rintro rfl
    omega
  obtain ⟨v, hv⟩ := Nat.exists_eq_add_of_le (Nat.le_log_of_pow_le Nat.one_lt_two h)
  have hle : 2 ^ (v + 52) ≤ p := by
    rw [Nat.add_comm, ← hv]
    exact Nat.pow_log_le_self 2 hpos
  have hlt : p < 2 ^ (v + 53) := by
    rw [show v + 53 = (52 + v) + 1 by omega, ← hv]
    exact Nat.lt_pow_succ_log_self Nat.one_lt_two p
  have hscaled : nearest (2 ^ s * p) 1 = 2 ^ (s + v) * quotient (2 ^ s * p) (2 ^ (s + v)) := by
    refine nearest_of_binade ?_ ?_
    · rw [Nat.add_assoc, pow_add]
      exact Nat.mul_le_mul_left _ hle
    · rw [Nat.add_assoc, pow_add]
      exact Nat.mul_lt_mul_of_pos_left hlt (Nat.pow_pos (by decide))
  rw [hscaled, nearest_of_binade hle hlt, pow_add, quotient_mul_left (Nat.pow_pos (by decide)),
    Nat.mul_assoc]

/-- What is rounded does not pass a power of two. -/
theorem nearest_le {n d e : ℕ} (h : n / d < 2 ^ e) : nearest n d ≤ 2 ^ e := by
  have hlog : Nat.log 2 (n / d) + 1 - 53 ≤ e := by
    by_cases hzero : n / d = 0
    · rw [hzero, Nat.log_zero_right]
      omega
    · have := Nat.log_lt_of_lt_pow hzero h
      omega
  unfold nearest
  dsimp only
  generalize Nat.log 2 (n / d) + 1 - 53 = u at hlog ⊢
  have hlt : n / (d * 2 ^ u) < 2 ^ (e - u) := by
    rw [← Nat.div_div_eq_div_mul]
    refine Nat.div_lt_of_lt_mul ?_
    rwa [← pow_add, Nat.add_sub_cancel' hlog]
  calc 2 ^ u * quotient n (d * 2 ^ u) ≤ 2 ^ u * 2 ^ (e - u) :=
        Nat.mul_le_mul_left _ (quotient_le hlt)
    _ = 2 ^ e := by rw [← pow_add, Nat.add_sub_cancel' hlog]

/-- **The product** of a double and a natural number that is a double. -/
def mulNat (c : ℕ) : Double → Double
  | .finite negative m =>
    if h : nearest (m.units * c) 1 < 2 ^ (fractionBits + 1024) then
      .finite negative ⟨nearest (m.units * c) 1, nearest_nearest _ _, h⟩
    else .infinite negative
  | .infinite negative => if c = 0 then .nan else .infinite negative
  | .nan => .nan

/-- The integer part, towards zero, if there is one. -/
def trunc : Double → Option ℤ
  | .finite negative m => some (if negative then -m.floor else m.floor)
  | .infinite _ | .nan => none

theorem ofDecimal_of_lt {d : ℕ} {k : ℤ} (h : unitsOf d k < 2 ^ (fractionBits + 1024))
    (negative : Bool) :
    ofDecimal negative d k = .finite negative ⟨unitsOf d k, nearest_nearest _ _, h⟩ := by
  unfold ofDecimal
  rw [dif_pos h]

theorem mulNat_of_lt {c : ℕ} {m : Magnitude}
    (h : nearest (m.units * c) 1 < 2 ^ (fractionBits + 1024)) (negative : Bool) :
    mulNat c (.finite negative m)
      = .finite negative ⟨nearest (m.units * c) 1, nearest_nearest _ _, h⟩ := by
  rw [mulNat, dif_pos h]

/-- **The integer part of a multiple** of a decimal number: rounded once for the number and
once for the product. -/
theorem trunc_mulNat_ofDecimal {c d : ℕ} {k : ℤ} (hsmall : unitsOf d k < 2 ^ (fractionBits + 1024))
    (hfits : nearest (unitsOf d k * c) 1 < 2 ^ (fractionBits + 1024)) (negative : Bool) :
    ((ofDecimal negative d k).mulNat c).trunc
      = some (if negative then -((nearest (unitsOf d k * c) 1 / 2 ^ fractionBits : ℕ) : ℤ)
        else (nearest (unitsOf d k * c) 1 / 2 ^ fractionBits : ℕ)) := by
  rw [ofDecimal_of_lt hsmall]
  have hmul := mulNat_of_lt (m := ⟨unitsOf d k, nearest_nearest _ _, hsmall⟩) hfits negative
  rw [hmul, trunc]
  rfl

/-! ## Texts -/

/-- **A decimal number as it is written**: the digits before the point, those after it, and
the exponent. -/
structure Parts where
  whole : ℕ
  fraction : List Char
  exponent : Option ℤ

/-- The last digits of a number, so many of them. -/
def lowDigits : ℕ → ℕ → List Char
  | 0, _ => []
  | j + 1, n => lowDigits j (n / 10) ++ [Nat.digitChar (n % 10)]

/-- **How Python writes the number** `d * 10 ^ k`: with an exponent if the point would stand
more than three zeros before the digits or after more than sixteen of them. -/
def parts (d : ℕ) (k : ℤ) : Parts :=
  let digits := (Nat.toDigits 10 d).length
  if -4 < digits + k ∧ digits + k ≤ 16 then
    if 0 ≤ k then ⟨d * 10 ^ k.toNat, ['0'], none⟩
    else ⟨d / 10 ^ (-k).toNat, lowDigits (-k).toNat d, none⟩
  else ⟨d / 10 ^ (digits - 1), lowDigits (digits - 1) d, some (digits - 1 + k)⟩

/-- The text of an exponent has at least two digits. -/
def exponentText (e : ℤ) : List Char :=
  (if e < 0 then '-' else '+') ::
    ((if e.natAbs < 10 then ['0'] else []) ++ Nat.toDigits 10 e.natAbs)

/-- What stands after the whole part. -/
def Parts.tail (p : Parts) : List Char :=
  (if p.fraction = [] then [] else '.' :: p.fraction)
    ++ match p.exponent with
      | none => []
      | some e => 'e' :: exponentText e

/-- The number that is read. -/
def Parts.units (p : Parts) : ℕ :=
  unitsOf (Nat.ofDigitChars 10 p.fraction p.whole) (p.exponent.getD 0 - p.fraction.length)

/-! ### The number that is written -/

theorem length_lowDigits (j n : ℕ) : (lowDigits j n).length = j := by
  induction j generalizing n with
  | zero => rfl
  | succ j ih => rw [lowDigits, List.length_append, ih, List.length_singleton]

theorem isDigit_of_mem_lowDigits {j n : ℕ} {c : Char} (h : c ∈ lowDigits j n) :
    c.isDigit = true := by
  induction j generalizing n with
  | zero => cases h
  | succ j ih =>
    rcases List.mem_append.1 h with h | h
    · exact ih h
    · have hall : ∀ i < 10, (Nat.digitChar i).isDigit = true := by decide
      rw [List.mem_singleton.1 h]
      exact hall _ (Nat.mod_lt n (by decide))

/-- **A number is put together** from its upper and its lower digits. -/
theorem ofDigitChars_lowDigits (j n : ℕ) :
    Nat.ofDigitChars 10 (lowDigits j n) (n / 10 ^ j) = n := by
  induction j generalizing n with
  | zero => simp [lowDigits]
  | succ j ih =>
    have hdiv : n / 10 ^ (j + 1) = n / 10 / 10 ^ j := by
      rw [Nat.div_div_eq_div_mul, pow_succ, Nat.mul_comm]
    rw [lowDigits, Nat.ofDigitChars_append, hdiv, ih,
      Nat.ofDigitChars_cons_digitChar_of_lt_ten (Nat.mod_lt n (by decide)),
      Nat.ofDigitChars_nil]
    omega

/-- **The text of a number is one of it.** -/
theorem units_parts (d : ℕ) (k : ℤ) : (parts d k).units = unitsOf d k := by
  have hpos : 0 < (Nat.toDigits 10 d).length := Nat.length_toDigits_pos
  unfold parts Parts.units
  dsimp only
  split
  next =>
    split
    next hk =>
      have hshift := unitsOf_shift d k (k.toNat + 1)
      have hexp : k - ((k.toNat + 1 : ℕ) : ℤ) = 0 - ((1 : ℕ) : ℤ) := by omega
      rw [hexp, pow_succ, ← Nat.mul_assoc] at hshift
      rw [← hshift]
      show unitsOf (10 * (d * 10 ^ k.toNat) + 0) _ = _
      rw [Nat.add_zero, Nat.mul_comm 10]
      rfl
    next hk =>
      have hexp : (0 : ℤ) - ((-k).toNat : ℤ) = k := by omega
      rw [ofDigitChars_lowDigits, length_lowDigits]
      show unitsOf d (0 - _) = _
      rw [hexp]
  next =>
    rw [ofDigitChars_lowDigits, length_lowDigits]
    congr 1
    show ((Nat.toDigits 10 d).length : ℤ) - 1 + k - _ = k
    omega

/-! ### Reading it back -/

/-- The digits after a point, if there are any, and what follows them. -/
def scanFraction : List Char → List Char × List Char
  | '.' :: cs =>
    if cs.takeWhile Char.isDigit = [] then ([], '.' :: cs)
    else (cs.takeWhile Char.isDigit, cs.dropWhile Char.isDigit)
  | cs => ([], cs)

/-- Whether a number is negative, where it may have a sign. -/
def scanSign : List Char → Bool × List Char
  | '-' :: cs => (true, cs)
  | '+' :: cs => (false, cs)
  | cs => (false, cs)

/-- An exponent, if there is one, and what follows it. -/
def scanExponent : List Char → Option ℤ × List Char
  | [] => (none, [])
  | c :: cs =>
    let ds := (scanSign cs).2.takeWhile Char.isDigit
    if (c = 'e' ∨ c = 'E') ∧ ds ≠ [] then
      let e : ℤ := Nat.ofDigitChars 10 ds 0
      (some (if (scanSign cs).1 then -e else e), (scanSign cs).2.dropWhile Char.isDigit)
    else (none, c :: cs)

/-- Nothing that would go on with a number. -/
def Ends (rest : List Char) : Prop :=
  ∀ c ∈ rest.head?, c.isDigit = false ∧ c ≠ '.' ∧ c ≠ 'e' ∧ c ≠ 'E'

theorem takeWhile_isDigit {ds rest : List Char} (hds : ∀ c ∈ ds, c.isDigit = true)
    (hrest : ∀ c ∈ rest.head?, c.isDigit = false) :
    (ds ++ rest).takeWhile Char.isDigit = ds ∧ (ds ++ rest).dropWhile Char.isDigit = rest := by
  rw [List.takeWhile_append_of_pos hds, List.dropWhile_append_of_pos hds]
  cases rest with
  | nil => exact ⟨List.append_nil ds, rfl⟩
  | cons c rest =>
    have hc : ¬ c.isDigit = true := by
      rw [hrest c rfl]
      exact Bool.false_ne_true
    rw [List.takeWhile_cons_of_neg hc, List.dropWhile_cons_of_neg hc, List.append_nil]
    exact ⟨rfl, rfl⟩

theorem scanFraction_nil {rest : List Char} (h : ∀ c ∈ rest.head?, c ≠ '.') :
    scanFraction rest = ([], rest) := by
  unfold scanFraction
  split
  next cs => exact absurd rfl (h '.' rfl)
  next => rfl

theorem scanFraction_digits {ds rest : List Char} (hne : ds ≠ [])
    (hds : ∀ c ∈ ds, c.isDigit = true) (hrest : ∀ c ∈ rest.head?, c.isDigit = false) :
    scanFraction ('.' :: (ds ++ rest)) = (ds, rest) := by
  obtain ⟨htake, hdrop⟩ := takeWhile_isDigit hds hrest
  rw [scanFraction, htake, hdrop, if_neg hne]

theorem scanExponent_nil {rest : List Char} (h : ∀ c ∈ rest.head?, c ≠ 'e' ∧ c ≠ 'E') :
    scanExponent rest = (none, rest) := by
  cases rest with
  | nil => rfl
  | cons c rest =>
    obtain ⟨he, hE⟩ := h c rfl
    rw [scanExponent]
    dsimp only
    rw [if_neg (fun hc => hc.1.elim he hE)]

/-- **An exponent is read back.** -/
theorem scanExponent_text (e : ℤ) {rest : List Char} (h : ∀ c ∈ rest.head?, c.isDigit = false) :
    scanExponent ('e' :: (exponentText e ++ rest)) = (some e, rest) := by
  have hdigits : ∀ c ∈ (if e.natAbs < 10 then ['0'] else []) ++ Nat.toDigits 10 e.natAbs,
      c.isDigit = true := by
    intro c hc
    rcases List.mem_append.1 hc with hc | hc
    · split at hc
      next =>
        rw [List.mem_singleton.1 hc]
        rfl
      next => cases hc
    · exact Nat.isDigit_of_mem_toDigits (by decide) (by decide) hc
  have hvalue : Nat.ofDigitChars 10
      ((if e.natAbs < 10 then ['0'] else []) ++ Nat.toDigits 10 e.natAbs) 0 = e.natAbs := by
    rw [Nat.ofDigitChars_append]
    split <;> exact Nat.ofDigitChars_ten_toDigits
  have hne : (if e.natAbs < 10 then ['0'] else []) ++ Nat.toDigits 10 e.natAbs ≠ [] :=
    fun hnil => absurd (List.append_eq_nil_iff.1 hnil).2
      (List.ne_nil_of_length_pos Nat.length_toDigits_pos)
  unfold exponentText
  generalize (if e.natAbs < 10 then ['0'] else []) ++ Nat.toDigits 10 e.natAbs = ds
    at hdigits hvalue hne ⊢
  obtain ⟨htake, hdrop⟩ := takeWhile_isDigit hdigits h
  rw [List.cons_append, scanExponent]
  dsimp only
  split
  next he =>
    rw [show scanSign ('-' :: (ds ++ rest)) = (true, ds ++ rest) from rfl]
    dsimp only
    rw [htake, hdrop, hvalue, if_pos ⟨.inl rfl, hne⟩, if_pos rfl,
      show -(e.natAbs : ℤ) = e by omega]
  next he =>
    rw [show scanSign ('+' :: (ds ++ rest)) = (false, ds ++ rest) from rfl]
    dsimp only
    rw [htake, hdrop, hvalue, if_pos ⟨.inl rfl, hne⟩, if_neg Bool.false_ne_true,
      show (e.natAbs : ℤ) = e by omega]

/-- A number that is written here has a point or an exponent. -/
theorem fractional_parts (d : ℕ) (k : ℤ) :
    (parts d k).fraction ≠ [] ∨ (parts d k).exponent ≠ none := by
  unfold parts
  dsimp only
  split
  next =>
    split
    next => exact .inl (List.cons_ne_nil _ _)
    next hk =>
      refine .inl (List.ne_nil_of_length_pos ?_)
      rw [length_lowDigits]
      omega
  next => exact .inr (Option.some_ne_none _)

theorem isDigit_fraction_parts (d : ℕ) (k : ℤ) :
    ∀ c ∈ (parts d k).fraction, c.isDigit = true := by
  intro c hc
  unfold parts at hc
  dsimp only at hc
  split at hc
  next =>
    split at hc
    next =>
      rw [List.mem_singleton.1 hc]
      rfl
    next => exact isDigit_of_mem_lowDigits hc
  next => exact isDigit_of_mem_lowDigits hc

/-- What stands after the whole part does not go on with it. -/
theorem not_isDigit_tail (p : Parts) {rest : List Char} (hrest : Ends rest) :
    ∀ c ∈ (p.tail ++ rest).head?, c.isDigit = false := by
  unfold Parts.tail
  split
  next =>
    cases p.exponent with
    | none => exact fun c hc => (hrest c hc).1
    | some e =>
      intro c hc
      cases hc
      rfl
  next =>
    intro c hc
    cases hc
    rfl

/-- **What stands after the whole part is read back.** -/
theorem scan_tail {p : Parts} (hp : ∀ c ∈ p.fraction, c.isDigit = true) {rest : List Char}
    (hrest : Ends rest) :
    scanFraction (p.tail ++ rest) = (p.fraction, (match p.exponent with
        | none => []
        | some e => 'e' :: exponentText e) ++ rest)
      ∧ scanExponent ((match p.exponent with
        | none => []
        | some e => 'e' :: exponentText e) ++ rest) = (p.exponent, rest) := by
  constructor
  · have hfollows : ∀ c ∈ ((match p.exponent with
        | none => []
        | some e => 'e' :: exponentText e) ++ rest).head?, c.isDigit = false ∧ c ≠ '.' := by
      cases p.exponent with
      | none => exact fun c hc => ⟨(hrest c hc).1, (hrest c hc).2.1⟩
      | some e =>
        intro c hc
        cases hc
        exact ⟨rfl, by decide⟩
    unfold Parts.tail
    split
    next hnil =>
      rw [List.nil_append, hnil]
      exact scanFraction_nil (fun c hc => (hfollows c hc).2)
    next hne =>
      rw [List.append_assoc, List.cons_append]
      exact scanFraction_digits hne hp (fun c hc => (hfollows c hc).1)
  · cases p.exponent with
    | none => exact scanExponent_nil (fun c hc => (hrest c hc).2.2)
    | some e =>
      rw [List.cons_append]
      exact scanExponent_text e (fun c hc => (hrest c hc).1)

end Double

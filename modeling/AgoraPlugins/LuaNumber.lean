import Mathlib.Algebra.Group.Nat.Defs
import Mathlib.Data.List.DropRight
import Mathlib.Data.Nat.Log
import Mathlib.Tactic.Common

/-!
# The natural numbers of Lua 5.1

A number of a Lua script is a double, and is written with fourteen significant
digits (`"%.14g"`), by `tostring` as well as by the JSON encoder that comes with
it. So a natural number that is read from its decimal text and written again
comes out as the same text only below `10 ^ 14`; from there on it is written with
an exponent, which no decimal text of a natural number has.

What is needed of this is that a number that is written as the decimal text of `m`
was read from that text (`LuaNumber.eq_of_tostring_tonumber`), and that a small one is
written so (`LuaNumber.tostring_tonumber_of_lt`).
-/

namespace LuaNumber

/-- A natural number rounded, half to even, to so many significant digits of a
base. -/
def roundTo (base digits n : ℕ) : ℕ :=
  let unit := base ^ (Nat.log base n + 1 - digits)
  let q := n / unit
  unit * (if 2 * (n % unit) < unit ∨ 2 * (n % unit) = unit ∧ q % 2 = 0 then q else q + 1)

/-- The double read from the decimal text of a natural number. -/
def tonumber (n : ℕ) : ℕ := roundTo 2 53 n

/-- The digits of `"%.14g"` with an exponent: one before the point, and none
after it that only fills up. -/
def exponential (x : ℕ) : String :=
  let rounded := roundTo 10 14 x
  let e := Nat.log 10 rounded
  let mantissa := (Nat.toDigits 10 (rounded / 10 ^ (e - 13))).rdropWhile (· = '0')
  let fraction := match mantissa with
    | [] => []
    | d :: [] => [d]
    | d :: ds => d :: '.' :: ds
  String.ofList (fraction ++ 'e' :: '+' :: Nat.toDigits 10 e)

/-- The text of a natural number in Lua. -/
def tostring (x : ℕ) : String :=
  if x < 10 ^ 14 then toString x else exponential x

example : tostring 12 = "12" := by decide

/-! ## What is written below 10¹⁴ is what was read -/

/-- Rounding does not go below the leading digit. -/
theorem pow_log_le_roundTo {base digits n : ℕ} (hb : 1 < base) (hd : 0 < digits)
    (hn : n ≠ 0) : base ^ Nat.log base n ≤ roundTo base digits n := by
  have hpos : 0 < base := by omega
  have hlog : base ^ Nat.log base n ≤ n := Nat.pow_log_le_self base hn
  unfold roundTo
  dsimp only
  generalize hu : Nat.log base n + 1 - digits = u
  have hle : u ≤ Nat.log base n := by omega
  have hsplit : base ^ Nat.log base n = base ^ u * base ^ (Nat.log base n - u) := by
    rw [← Nat.pow_add, Nat.add_sub_cancel' hle]
  have hq : base ^ (Nat.log base n - u) ≤ n / base ^ u := by
    rw [Nat.le_div_iff_mul_le (Nat.pow_pos hpos), Nat.mul_comm, ← hsplit]
    exact hlog
  rw [hsplit]
  refine Nat.mul_le_mul_left _ ?_
  split
  · exact hq
  · exact hq.trans (Nat.le_succ _)

/-- A number with few digits is not rounded. -/
theorem roundTo_eq_self {base digits n : ℕ} (h : Nat.log base n < digits) :
    roundTo base digits n = n := by
  have hu : Nat.log base n + 1 - digits = 0 := by omega
  unfold roundTo
  simp [hu, Nat.mod_one]

/-- **A small double was read exactly**, fifty-three bits being more than
fourteen digits. -/
theorem eq_of_tonumber_lt {n : ℕ} (h : tonumber n < 10 ^ 14) : tonumber n = n := by
  by_cases hlog : Nat.log 2 n < 53
  · exact roundTo_eq_self hlog
  · have hn : n ≠ 0 := by
      rintro rfl
      simp at hlog
    have hle : 2 ^ 53 ≤ 2 ^ Nat.log 2 n := Nat.pow_le_pow_right (by decide) (by omega)
    have hge : 2 ^ Nat.log 2 n ≤ tonumber n := pow_log_le_roundTo (by decide) (by decide) hn
    omega

theorem toString_ne_exponential (n x : ℕ) : toString n ≠ exponential x := by
  intro h
  have hmem : 'e' ∈ (exponential x).toList := by
    unfold exponential
    simp
  rw [← h, Nat.toString_eq_ofList_toDigits, String.toList_ofList] at hmem
  have hdigit : ('e').isDigit = true :=
    Nat.isDigit_of_mem_toDigits (by decide) (by decide) hmem
  exact absurd hdigit (by decide)

theorem toString_inj {m n : ℕ} (h : toString m = toString n) : m = n := by
  have hdigits : Nat.toDigits 10 m = Nat.toDigits 10 n := by
    rw [Nat.toString_eq_ofList_toDigits, Nat.toString_eq_ofList_toDigits] at h
    simpa using congrArg String.toList h
  simpa using congrArg (fun digits => Nat.ofDigitChars 10 digits 0) hdigits

/-- **The text identifies the number**: what is read from the text of `n` and
written as the text of `m` is `m`. -/
theorem eq_of_tostring_tonumber {m n : ℕ} (h : tostring (tonumber n) = toString m) :
    n = m := by
  unfold tostring at h
  split at h
  next hlt =>
    rw [eq_of_tonumber_lt hlt] at h
    exact toString_inj h
  next => exact absurd h.symm (toString_ne_exponential _ _)

/-- Below `10 ^ 14` a number is written as the text it was read from. -/
theorem tostring_tonumber_of_lt {n : ℕ} (h : n < 10 ^ 14) :
    tostring (tonumber n) = toString n := by
  have hlog : Nat.log 2 n < 53 := by
    refine Nat.log_lt_of_lt_pow' (by decide) (h.trans ?_)
    decide
  have hn : tonumber n = n := roundTo_eq_self hlog
  rw [hn]
  exact if_pos h

end LuaNumber

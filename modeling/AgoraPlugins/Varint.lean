import Mathlib.Data.UInt
import Mathlib.Tactic.Common

/-!
# Numbers in base 128

A natural number is written by its digits in base 128, the lowest one first, each in a byte of
its own; every byte but the last has 128 added to it. Reading such a number at the beginning of
some bytes gives it back, with the number of bytes that it took, whatever comes after them.
-/

namespace Varint

/-- The digits of a number. -/
def encode (n : ℕ) : List UInt8 :=
  if n < 128 then [UInt8.ofNat n] else UInt8.ofNat (n % 128 + 128) :: encode (n / 128)
termination_by n
decreasing_by omega

/-- The number that some bytes begin with, and how many of them it takes, if it ends there. -/
def decode : List UInt8 → Option (ℕ × ℕ)
  | [] => none
  | b :: bytes =>
    if b.toNat < 128 then some (b.toNat, 1)
    else (decode bytes).map (fun p => (b.toNat - 128 + 128 * p.1, p.2 + 1))

/-- **A number is read back**, whatever comes after it. -/
theorem decode_encode_append (n : ℕ) (rest : List UInt8) :
    decode (encode n ++ rest) = some (n, (encode n).length) := by
  induction n using encode.induct with
  | case1 n hn =>
    have hbyte : (UInt8.ofNat n).toNat = n := by
      rw [UInt8.toNat_ofNat']
      omega
    rw [encode, if_pos hn]
    simp [decode, hbyte, hn]
  | case2 n hn ih =>
    have hbyte : (UInt8.ofNat (n % 128 + 128)).toNat = n % 128 + 128 := by
      rw [UInt8.toNat_ofNat']
      omega
    rw [encode, if_neg hn, List.cons_append, decode, hbyte, if_neg (by omega), ih]
    simp only [Option.map_some, List.length_cons, Option.some.injEq, Prod.mk.injEq, and_true]
    omega

/-- What is read is there. -/
theorem length_of_decode {bytes : List UInt8} {n k : ℕ} (h : decode bytes = some (n, k)) :
    0 < k ∧ k ≤ bytes.length := by
  induction bytes generalizing n k with
  | nil => cases h
  | cons b bytes ih =>
    rw [decode] at h
    split at h
    · cases h
      exact ⟨Nat.one_pos, Nat.le_add_left 1 _⟩
    · obtain ⟨p, hp, heq⟩ := Option.map_eq_some_iff.1 h
      cases heq
      exact ⟨Nat.succ_pos _, Nat.succ_le_succ (ih hp).2⟩

/-- Only the number zero begins with a zero. -/
theorem encode_eq_cons {n : ℕ} (hn : n ≠ 0) : ∃ b bytes, encode n = b :: bytes ∧ b ≠ 0 := by
  rw [encode]
  split
  · rename_i hlt
    refine ⟨_, [], rfl, fun h => hn ?_⟩
    have hbyte := congrArg UInt8.toNat h
    rw [UInt8.toNat_ofNat'] at hbyte
    change n % 256 = 0 at hbyte
    omega
  · refine ⟨_, _, rfl, fun h => ?_⟩
    have hbyte := congrArg UInt8.toNat h
    rw [UInt8.toNat_ofNat'] at hbyte
    change (n % 128 + 128) % 256 = 0 at hbyte
    omega

end Varint

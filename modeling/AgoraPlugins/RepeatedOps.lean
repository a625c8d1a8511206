import Mathlib.Data.List.Dedup
import Mathlib.Tactic.Common

/-!
# Operations that may be repeated

Delivery at least once does an operation for every message, for some of them again and again, and
in an order nobody has chosen. If to do one twice is to do it once, and two may change places, then
the state in the end is the one in which each message that has come at all was handled exactly once
(`foldl_dedup`).
-/

namespace RepeatedOps

variable {σ ι : Type}

/-- **Operations that may be repeated**, and in another order. -/
structure Repeatable (apply : σ → ι → σ) : Prop where
  twice : ∀ s i, apply (apply s i) i = apply s i
  swap : ∀ s i j, apply (apply s i) j = apply (apply s j) i

variable {apply : σ → ι → σ}

/-- What is done first may be done last. -/
theorem Repeatable.foldl_apply (h : Repeatable apply) (s : σ) (i : ι) (is : List ι) :
    is.foldl apply (apply s i) = apply (is.foldl apply s) i := by
  induction is generalizing s with
  | nil => rfl
  | cons j is ih => rw [List.foldl_cons, List.foldl_cons, h.swap, ih]

/-- **What has been done** need not be done again. -/
theorem Repeatable.foldl_of_mem (h : Repeatable apply) {i : ι} {is : List ι} (hi : i ∈ is) (s : σ) :
    apply (is.foldl apply s) i = is.foldl apply s := by
  induction is generalizing s with
  | nil => cases hi
  | cons j is ih =>
    rw [List.foldl_cons]
    rcases List.mem_cons.1 hi with rfl | hi
    · rw [h.foldl_apply, h.twice]
    · exact ih hi _

/-- **Whatever is repeated**, the state is that of each operation once. -/
theorem Repeatable.foldl_dedup [DecidableEq ι] (h : Repeatable apply) (is : List ι) (s : σ) :
    is.dedup.foldl apply s = is.foldl apply s := by
  induction is generalizing s with
  | nil => rfl
  | cons i is ih =>
    by_cases hi : i ∈ is
    · rw [List.dedup_cons_of_mem hi, ih, List.foldl_cons, h.foldl_apply, h.foldl_of_mem hi]
    · rw [List.dedup_cons_of_notMem hi, List.foldl_cons, List.foldl_cons, ih]

end RepeatedOps

import Mathlib.Data.List.Basic
import Mathlib.Data.Int.Order.Basic
import Mathlib.Tactic.Common

/-!
# Logs in partitions, and what is read of them

A topic is a log for each partition: entries with increasing offsets, to which more are appended. A
consumer has a position in each and reads on from it, some of one partition and then some of
another, in portions nobody has chosen. What it has read of a partition is then the segment of the
log from where it began to where it is now – whatever the portions were, and whatever has been
appended meanwhile (`segment_append_segment`, `segment_append`).

Of all the partitions it has read one list, in which they are interleaved. A reader that only looks
at the entries of one partition may look at its segment instead (`filterMap_ofPartition`).
-/

/-- **Logs**: the entries of each partition, with their offsets, and the offset the next one will
have at least. -/
structure PartitionedLog (π μ : Type) where
  entries : π → List (ℤ × μ)
  endOffset : π → ℤ

namespace PartitionedLog

variable {π μ : Type} (log : PartitionedLog π μ)

/-- The entries of a partition are in the order of their offsets, all below the end. -/
structure Sorted : Prop where
  pairwise : ∀ p, (log.entries p).Pairwise (fun x y => x.1 < y.1)
  bound : ∀ p, ∀ x ∈ log.entries p, x.1 < log.endOffset p

/-- **An entry is appended** to a partition. Between it and the last one offsets may be left
out. -/
def append [DecidableEq π] (p : π) (gap : ℕ) (value : μ) : PartitionedLog π μ where
  entries q :=
    if q = p then log.entries q ++ [(log.endOffset q + gap, value)] else log.entries q
  endOffset q := if q = p then log.endOffset q + gap + 1 else log.endOffset q

/-- **The segment** of a partition from one offset up to another. -/
def segment (p : π) (lo hi : ℤ) : List (ℤ × μ) :=
  (log.entries p).filter (fun x => lo ≤ x.1 ∧ x.1 < hi)

variable {log} {p : π} {lo mid hi : ℤ}

theorem mem_segment {x : ℤ × μ} :
    x ∈ log.segment p lo hi ↔ x ∈ log.entries p ∧ lo ≤ x.1 ∧ x.1 < hi := by
  unfold segment
  rw [List.mem_filter, decide_eq_true_eq]

theorem segment_self (p : π) (lo : ℤ) : log.segment p lo lo = [] := by
  refine List.eq_nil_iff_forall_not_mem.2 (fun x hx => ?_)
  obtain ⟨_, hlo, hhi⟩ := mem_segment.1 hx
  omega

/-- Of a sorted list, what is below a bound comes before what is not. -/
theorem filter_append_filter {xs : List (ℤ × μ)} (h : xs.Pairwise (fun x y => x.1 < y.1))
    (hlo : lo ≤ mid) (hhi : mid ≤ hi) :
    xs.filter (fun x => lo ≤ x.1 ∧ x.1 < mid) ++ xs.filter (fun x => mid ≤ x.1 ∧ x.1 < hi)
      = xs.filter (fun x => lo ≤ x.1 ∧ x.1 < hi) := by
  induction xs with
  | nil => rfl
  | cons x xs ih =>
    obtain ⟨hx, hxs⟩ := List.pairwise_cons.1 h
    have htail := ih hxs
    by_cases hmid : x.1 < mid
    · have hnot : ¬ (mid ≤ x.1 ∧ x.1 < hi) := fun h => absurd h.1 (Int.not_le.2 hmid)
      have hsame : (lo ≤ x.1 ∧ x.1 < mid) ↔ (lo ≤ x.1 ∧ x.1 < hi) :=
        and_congr_right (fun _ => iff_of_true hmid (Int.lt_of_lt_of_le hmid hhi))
      simp only [List.filter_cons, decide_eq_true_eq, if_neg hnot, hsame]
      split
      · rw [List.cons_append, htail]
      · exact htail
    · have hnone : (x :: xs).filter (fun x => lo ≤ x.1 ∧ x.1 < mid) = [] := by
        refine List.filter_eq_nil_iff.2 (fun y hy hlt => ?_)
        have hlt := (of_decide_eq_true hlt).2
        rcases List.mem_cons.1 hy with rfl | hy
        · exact hmid hlt
        · have := hx y hy
          omega
      rw [hnone, List.nil_append]
      refine List.filter_congr (fun y hy => ?_)
      have hge : mid ≤ y.1 := by
        rcases List.mem_cons.1 hy with rfl | hy
        · exact Int.not_lt.1 hmid
        · have := hx y hy
          omega
      rw [decide_eq_decide]
      omega

/-- **Two portions that follow on** are one. -/
theorem segment_append_segment (hlog : log.Sorted) (hlo : lo ≤ mid) (hhi : mid ≤ hi) :
    log.segment p lo mid ++ log.segment p mid hi = log.segment p lo hi :=
  filter_append_filter (hlog.pairwise p) hlo hhi

section Append

variable [DecidableEq π]

theorem endOffset_le_append (log : PartitionedLog π μ) (q : π) (gap : ℕ) (value : μ) (p : π) :
    log.endOffset p ≤ (log.append q gap value).endOffset p := by
  show _ ≤ if p = q then log.endOffset p + gap + 1 else log.endOffset p
  split <;> omega

theorem Sorted.append (hlog : log.Sorted) (q : π) (gap : ℕ) (value : μ) :
    (log.append q gap value).Sorted := by
  constructor
  · intro p
    show (if p = q then log.entries p ++ [(log.endOffset p + gap, value)]
      else log.entries p).Pairwise _
    split
    · refine List.pairwise_append.2 ⟨hlog.pairwise p, List.pairwise_singleton _ _, ?_⟩
      intro x hx y hy
      rw [List.mem_singleton.1 hy]
      have := hlog.bound p x hx
      show x.1 < log.endOffset p + gap
      omega
    · exact hlog.pairwise p
  · intro p x hx
    have hx : x ∈ if p = q then log.entries p ++ [(log.endOffset p + gap, value)]
      else log.entries p := hx
    show x.1 < if p = q then log.endOffset p + gap + 1 else log.endOffset p
    split at hx
    next hq =>
      rw [if_pos hq]
      rcases List.mem_append.1 hx with hx | hx
      · have := hlog.bound p x hx
        omega
      · rw [List.mem_singleton.1 hx]
        show log.endOffset p + gap < _
        omega
    next hq =>
      rw [if_neg hq]
      exact hlog.bound p x hx

/-- **What is appended** is not in a segment that ended before. -/
theorem segment_append (q : π) (gap : ℕ) (value : μ) (hhi : hi ≤ log.endOffset p) :
    (log.append q gap value).segment p lo hi = log.segment p lo hi := by
  unfold segment
  show (if p = q then log.entries p ++ [(log.endOffset p + gap, value)]
    else log.entries p).filter _ = _
  split
  · have hnot : ¬ (lo ≤ log.endOffset p + gap ∧ log.endOffset p + gap < hi) := by omega
    have hnone : [(log.endOffset p + (gap : ℤ), value)].filter
        (fun x => decide (lo ≤ x.1 ∧ x.1 < hi)) = [] := by
      rw [List.filter_cons, if_neg (decide_eq_true_iff.not.2 hnot)]
      rfl
    rw [List.filter_append, hnone, List.append_nil]
  · rfl

/-! ## Entries of several partitions in one list -/

/-- The entries of one partition among those that have been read. -/
def ofPartition {α : Type} (p : π) (xs : List (π × α)) : List α :=
  xs.filterMap (fun x => if x.1 = p then some x.2 else none)

@[simp] theorem ofPartition_nil {α : Type} (p : π) : ofPartition p ([] : List (π × α)) = [] := rfl

@[simp] theorem ofPartition_append {α : Type} (p : π) (xs ys : List (π × α)) :
    ofPartition p (xs ++ ys) = ofPartition p xs ++ ofPartition p ys :=
  List.filterMap_append

/-- A portion of one partition. -/
theorem ofPartition_map {α : Type} (p q : π) (xs : List α) :
    ofPartition p (xs.map (fun x => (q, x))) = if q = p then xs else [] := by
  unfold ofPartition
  rw [List.filterMap_map]
  split
  next h =>
    refine (List.filterMap_congr (fun x _ => ?_)).trans List.filterMap_some
    exact if_pos h
  next h =>
    refine List.filterMap_eq_nil_iff.2 (fun x _ => ?_)
    exact if_neg h

theorem mem_ofPartition {α : Type} {p : π} {xs : List (π × α)} {x : α} :
    x ∈ ofPartition p xs ↔ (p, x) ∈ xs := by
  unfold ofPartition
  rw [List.mem_filterMap]
  constructor
  · rintro ⟨⟨q, y⟩, hy, h⟩
    rw [Option.ite_none_right_eq_some, Option.some.injEq] at h
    obtain ⟨hq, hyx⟩ := h
    have hq : q = p := hq
    have hyx : y = x := hyx
    rwa [hq, hyx] at hy
  · exact fun h => ⟨(p, x), h, if_pos rfl⟩

/-- **A reader of one partition** may read its segment instead of what was read of all. -/
theorem filterMap_ofPartition {α β : Type} {p : π} {xs : List (π × α)} {f : α → Option β}
    (h : ∀ x ∈ xs, (f x.2).isSome = true → x.1 = p) :
    (ofPartition p xs).filterMap f = xs.filterMap (fun x => f x.2) := by
  unfold ofPartition
  rw [List.filterMap_filterMap]
  refine List.filterMap_congr (fun x hx => ?_)
  by_cases hp : x.1 = p
  · rw [if_pos hp]
    rfl
  · have hnone : f x.2 = none := by
      by_contra hne
      exact hp (h x hx (Option.isSome_iff_ne_none.2 hne))
    rw [if_neg hp, hnone]
    rfl

end Append

end PartitionedLog

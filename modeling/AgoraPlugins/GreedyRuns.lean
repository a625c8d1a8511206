import Mathlib.Algebra.Order.BigOperators.Group.List
import Mathlib.Algebra.Group.Nat.Defs
import Mathlib.Algebra.GroupWithZero.Nat
import Mathlib.Algebra.Order.Group.Nat
import Mathlib.Tactic.Common

/-!
# Runs that are as long as they can be

A list is divided into runs whose members have a limited size together, each run as long as it can
be: what comes after it would be too much. There is only one such division, so whatever divides a
list in this way makes the same runs.
-/

namespace Runs

variable {α β : Type} (size : α → ℕ) (limit : ℕ)

/-- The size of a run. -/
def total (run : List α) : ℕ := (run.map size).sum

/-- **Runs as long as they can be**, and none of them empty. -/
def Greedy : List (List α) → Prop
  | [] => True
  | run :: runs => run ≠ [] ∧ total size run ≤ limit
      ∧ (∀ x ∈ runs.flatten.head?, limit < total size run + size x) ∧ Greedy runs

variable {size limit}

@[simp] theorem total_nil : total size [] = 0 := rfl

theorem total_append (run run' : List α) :
    total size (run ++ run') = total size run + total size run' := by
  unfold total
  rw [List.map_append, List.sum_append]

theorem total_cons (x : α) (run : List α) : total size (x :: run) = size x + total size run := by
  unfold total
  rw [List.map_cons, List.sum_cons]

theorem total_replicate (n : ℕ) (x : α) : total size (List.replicate n x) = n * size x := by
  induction n with
  | zero => rw [List.replicate_zero, total_nil, Nat.zero_mul]
  | succ n ih => rw [List.replicate_succ, total_cons, ih, Nat.succ_mul, Nat.add_comm]

theorem le_total {x : α} {run : List α} (hx : x ∈ run) : size x ≤ total size run :=
  List.le_sum_of_mem (List.mem_map_of_mem hx)

theorem Greedy.of_mem {runs : List (List α)} (h : Greedy size limit runs) {run : List α}
    (hrun : run ∈ runs) : run ≠ [] ∧ total size run ≤ limit := by
  induction runs with
  | nil => exact absurd hrun List.not_mem_nil
  | cons run' runs ih =>
    rcases List.mem_cons.1 hrun with rfl | hrun
    · exact ⟨h.1, h.2.1⟩
    · exact ih h.2.2.2 hrun

/-- A run of limited size does not go on with what comes after another. -/
theorem eq_of_next {run run' more rest : List α} {runs : List (List α)}
    (hnext : ∀ x ∈ runs.flatten.head?, limit < total size run + size x)
    (hlonger : run' = run ++ more) (hflatten : runs.flatten = more ++ rest)
    (hle : total size run' ≤ limit) : run' = run := by
  cases more with
  | nil => rw [hlonger, List.append_nil]
  | cons x more =>
    have hx : limit < total size run + size x := hnext x (by rw [hflatten]; rfl)
    rw [hlonger, total_append, total_cons] at hle
    omega

/-- **There is one division.** -/
theorem Greedy.unique {runs runs' : List (List α)} (h : Greedy size limit runs)
    (h' : Greedy size limit runs') (hflatten : runs.flatten = runs'.flatten) : runs = runs' := by
  induction runs generalizing runs' with
  | nil =>
    cases runs' with
    | nil => rfl
    | cons run' runs' =>
      exact absurd (List.append_eq_nil_iff.1 hflatten.symm).1 h'.1
  | cons run runs ih =>
    cases runs' with
    | nil => exact absurd (List.append_eq_nil_iff.1 hflatten).1 h.1
    | cons run' runs' =>
      have hrun : run = run' := by
        rcases List.append_eq_append_iff.1 hflatten with
          ⟨more, hlonger, hrest⟩ | ⟨more, hlonger, hrest⟩
        · exact (eq_of_next h.2.2.1 hlonger hrest h'.2.1).symm
        · exact eq_of_next h'.2.2.1 hlonger hrest h.2.1
      subst hrun
      rw [ih h.2.2.2 h'.2.2.2 (List.append_cancel_left hflatten)]

theorem total_map (f : β → α) (run : List β) : total size (run.map f) = total (size ∘ f) run := by
  unfold total
  rw [List.map_map]

theorem total_congr {size' : α → ℕ} {run : List α} (h : ∀ x ∈ run, size x = size' x) :
    total size run = total size' run :=
  congrArg List.sum (List.map_congr_left h)

/-- Only the sizes of the members matter. -/
theorem Greedy.congr {size' : α → ℕ} {runs : List (List α)} (h : Greedy size limit runs)
    (heq : ∀ x ∈ runs.flatten, size x = size' x) : Greedy size' limit runs := by
  induction runs with
  | nil => trivial
  | cons run runs ih =>
    have hrun := total_congr (fun x hx => heq x (List.mem_append_left _ hx))
    refine ⟨h.1, hrun ▸ h.2.1, fun x hx => ?_, ih h.2.2.2 (fun x hx =>
      heq x (List.mem_append_right _ hx))⟩
    have hx' : x ∈ runs.flatten := List.mem_of_mem_head? hx
    rw [← hrun, ← heq x (List.mem_append_right _ hx')]
    exact h.2.2.1 x hx

/-- The runs of what is taken to the members of a list, with their sizes. -/
theorem greedy_map {f : β → α} {runs : List (List β)} :
    Greedy size limit (runs.map (List.map f)) ↔ Greedy (size ∘ f) limit runs := by
  induction runs with
  | nil => exact Iff.rfl
  | cons run runs ih =>
    show (_ ∧ _ ∧ _ ∧ _) ↔ (_ ∧ _ ∧ _ ∧ _)
    rw [← List.map_flatten, List.head?_map, ih]
    unfold total
    rw [List.map_map]
    simp

end Runs

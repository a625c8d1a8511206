import Mathlib.Data.List.Forall2

/-!
# Computations that may fail

What an `Except` computation returns is said step by step: a sequence of steps returns when
each of them does, and a traversal of a list when every member's step does.
-/

namespace Fallible

variable {ε α β : Type}

theorem map_eq_ok_iff {f : α → β} {x : Except ε α} {b : β} :
    x.map f = .ok b ↔ ∃ a, x = .ok a ∧ f a = b := by
  cases x <;> simp [Except.map]

theorem bind_eq_ok_iff {x : Except ε α} {f : α → Except ε β} {b : β} :
    (x >>= f) = .ok b ↔ ∃ a, x = .ok a ∧ f a = .ok b := by
  cases x <;> simp [bind, Except.bind]

/-- Each member of a list has something that is related to it. -/
theorem exists_forall₂_iff {P : α → β → Prop} {xs : List α} :
    (∃ ys, List.Forall₂ P xs ys) ↔ ∀ x ∈ xs, ∃ y, P x y := by
  induction xs with
  | nil => exact iff_of_true ⟨[], .nil⟩ (fun x hx => absurd hx List.not_mem_nil)
  | cons x xs ih =>
    rw [List.forall_mem_cons, ← ih]
    constructor
    · rintro ⟨_, _ | ⟨hxy, hall⟩⟩
      exact ⟨⟨_, hxy⟩, _, hall⟩
    · rintro ⟨⟨y, hxy⟩, ys, hall⟩
      exact ⟨y :: ys, .cons hxy hall⟩

/-- All of a list, or an error. -/
theorem mapM_eq_ok_iff {f : α → Except ε β} {xs : List α} {ys : List β} :
    xs.mapM f = .ok ys ↔ List.Forall₂ (fun x y => f x = .ok y) xs ys := by
  induction xs generalizing ys with
  | nil => cases ys <;> simp [pure, Except.pure]
  | cons x xs ih =>
    rw [List.mapM_cons, bind_eq_ok_iff, List.forall₂_cons_left_iff]
    constructor
    · rintro ⟨y, hy, h⟩
      obtain ⟨ys', hys', h'⟩ := bind_eq_ok_iff.1 h
      exact ⟨y, ys', hy, ih.1 hys', (Except.ok.inj h').symm⟩
    · rintro ⟨y, ys', hy, hys', rfl⟩
      exact ⟨y, hy, bind_eq_ok_iff.2 ⟨ys', ih.2 hys', rfl⟩⟩

theorem forM_eq_ok_iff {f : α → Except ε Unit} {xs : List α} :
    xs.forM f = .ok () ↔ ∀ x ∈ xs, f x = .ok () := by
  induction xs with
  | nil => exact ⟨fun _ _ h => absurd h List.not_mem_nil, fun _ => rfl⟩
  | cons x xs ih =>
    show (f x >>= fun _ => xs.forM f) = .ok () ↔ _
    rw [bind_eq_ok_iff, List.forall_mem_cons]
    exact ⟨fun ⟨_, hx, hxs⟩ => ⟨hx, ih.1 hxs⟩, fun ⟨hx, hxs⟩ => ⟨(), hx, ih.2 hxs⟩⟩

theorem ite_error_eq_ok_iff {p : Prop} [Decidable p] {e : ε} {a b : α} :
    (if p then (.error e : Except ε α) else .ok a) = .ok b ↔ ¬ p ∧ b = a := by
  split <;> simp_all [eq_comm]

/-- A traversal that changes nothing. -/
theorem mapM_eq_self {f : α → Except ε α} {xs : List α} (h : ∀ x ∈ xs, f x = .ok x) :
    xs.mapM f = .ok xs :=
  mapM_eq_ok_iff.2 (List.forall₂_same.2 h)

/-- A traversal returns as many values as it was given. -/
theorem length_of_mapM_eq_ok {f : α → Except ε β} {xs : List α} {ys : List β}
    (h : xs.mapM f = .ok ys) : ys.length = xs.length :=
  (mapM_eq_ok_iff.1 h).length_eq.symm

/-- What a traversal returns, some member of the list was taken to. -/
theorem exists_of_mem_of_mapM_eq_ok {f : α → Except ε β} {xs : List α} {ys : List β}
    (h : xs.mapM f = .ok ys) : ∀ y ∈ ys, ∃ x ∈ xs, f x = .ok y := by
  induction mapM_eq_ok_iff.1 h with
  | nil => simp
  | cons hxy hrest ih =>
    refine List.forall_mem_cons.2 ⟨⟨_, List.mem_cons_self, hxy⟩, fun y hy => ?_⟩
    obtain ⟨x, hx, hfx⟩ := ih (mapM_eq_ok_iff.2 hrest) y hy
    exact ⟨x, List.mem_cons_of_mem _ hx, hfx⟩

/-- What each member of the list was taken to is returned. -/
theorem mem_of_mapM_eq_ok {f : α → Except ε β} {xs : List α} {ys : List β}
    (h : xs.mapM f = .ok ys) : ∀ x ∈ xs, ∃ y ∈ ys, f x = .ok y := by
  induction mapM_eq_ok_iff.1 h with
  | nil => simp
  | cons hxy hrest ih =>
    refine List.forall_mem_cons.2 ⟨⟨_, List.mem_cons_self, hxy⟩, fun x hx => ?_⟩
    obtain ⟨y, hy, hfx⟩ := ih (mapM_eq_ok_iff.2 hrest) x hx
    exact ⟨y, List.mem_cons_of_mem _ hy, hfx⟩

/-- A traversal returns if each step does. -/
theorem exists_mapM_eq_ok {f : α → Except ε β} {xs : List α} (h : ∀ x ∈ xs, ∃ y, f x = .ok y) :
    ∃ ys, xs.mapM f = .ok ys := by
  obtain ⟨ys, hall⟩ := exists_forall₂_iff.2 h
  exact ⟨ys, mapM_eq_ok_iff.2 hall⟩

/-- Two traversals, one after the other, make of each member what it is taken to in the end. -/
theorem mapM_bind_eq_ok_iff {γ : Type} {f : α → Except ε β} {g : β → Except ε γ} {xs : List α}
    {zs : List γ} : xs.mapM (fun x => f x >>= g) = .ok zs ↔
      ∃ ys, xs.mapM f = .ok ys ∧ ys.mapM g = .ok zs := by
  simp only [mapM_eq_ok_iff]
  constructor
  · intro h
    induction h with
    | nil => exact ⟨[], .nil, .nil⟩
    | cons hxz _ ih =>
      obtain ⟨y, hy, hz⟩ := bind_eq_ok_iff.1 hxz
      obtain ⟨ys, hys, hzs⟩ := ih
      exact ⟨y :: ys, .cons hy hys, .cons hz hzs⟩
  · rintro ⟨ys, hf, hg⟩
    induction hf generalizing zs with
    | nil =>
      cases hg
      exact .nil
    | cons hxy _ ih =>
      cases hg with
      | cons hyz hrest => exact .cons (bind_eq_ok_iff.2 ⟨_, hxy, hyz⟩) (ih hrest)

end Fallible

import Mathlib.Data.Set.Card
import Mathlib.Order.Interval.Finset.Nat
import Mathlib.Order.Monotone.Basic

/-!
# The first elements of a set

A list has the first elements of a set, up to some number of them, if it is in order, and what it
leaves out of the set comes after all it has, and is left out because the number is reached. There
is only one such list (`FirstOf.unique`).

Where the elements of a set are enumerated in order, by a sequence that leaves the set once and for
all, the first elements are the first of the sequence (`firstOf_map_range`), and whether there are
more is told by the one that comes next (`lt_encard_iff`).
-/

variable {T : Type*} [LinearOrder T]

/-- **The first `n` elements of a set**, in order, or all of them if there are fewer. -/
structure FirstOf (s : Set T) (n : ℕ) (l : List T) : Prop where
  sorted : l.Pairwise (· < ·)
  mem : ∀ t ∈ l, t ∈ s
  length_le : l.length ≤ n
  before : ∀ t ∈ s, t ∉ l → l.length = n ∧ ∀ u ∈ l, u < t

namespace FirstOf

variable {s : Set T} {n : ℕ} {l l' : List T}

/-- What one list has, another one has. -/
theorem subset (h : FirstOf s n l) (h' : FirstOf s n l') : ∀ t ∈ l, t ∈ l' := by
  intro t ht
  by_contra hnot
  obtain ⟨hlength, hbefore⟩ := h'.before t (h.mem t ht) hnot
  -- the other list is full, so it has something that this one has not
  obtain ⟨u, hu, hnu⟩ : ∃ u ∈ l', u ∉ l := by
    by_contra hall
    have hsubset : ∀ u ∈ l', u ∈ l := fun u hu => by_contra (fun hnu => hall ⟨u, hu, hnu⟩)
    have hnodup : (t :: l').Nodup :=
      List.nodup_cons.2 ⟨hnot, h'.sorted.imp (fun hlt => hlt.ne)⟩
    have hsub : t :: l' ⊆ l := List.cons_subset.2 ⟨ht, hsubset⟩
    have hle := (List.subperm_of_subset hnodup hsub).length_le
    rw [List.length_cons, hlength] at hle
    exact absurd (hle.trans h.length_le) (Nat.not_succ_le_self n)
  have hlt := hbefore u hu
  exact lt_asymm hlt ((h.before u (h'.mem u hu) hnu).2 t ht)

/-- **There is only one list** of first elements. -/
theorem unique (h : FirstOf s n l) (h' : FirstOf s n l') : l = l' := by
  have hperm : l.Perm l' := by
    refine (List.perm_ext_iff_of_nodup (h.sorted.imp (fun hlt => hlt.ne))
      (h'.sorted.imp (fun hlt => hlt.ne))).2 (fun t => ⟨h.subset h' t, h'.subset h t⟩)
  exact hperm.eq_of_pairwise (fun _ _ _ _ hab hba => absurd hba (lt_asymm hab)) h.sorted h'.sorted

end FirstOf

section Enumeration

variable {f : ℕ → T} {p : T → Prop}

/-- The part of a sequence in which a property holds. -/
def rangeWith (f : ℕ → T) (p : T → Prop) : Set T := {t | t ∈ Set.range f ∧ p t}

/-- **The first elements are the first of the sequence.** -/
theorem firstOf_map_range (hf : StrictMono f) (hp : ∀ i j, i ≤ j → p (f j) → p (f i)) {n k : ℕ}
    (hle : k ≤ n) (hk : ∀ i < k, p (f i)) (hstop : k = n ∨ ¬ p (f k)) :
    FirstOf (rangeWith f p) n ((List.range k).map f) where
  sorted := List.pairwise_map.2 (List.pairwise_lt_range.imp (fun hlt => hf hlt))
  mem t ht := by
    obtain ⟨i, hi, rfl⟩ := List.mem_map.1 ht
    exact ⟨⟨i, rfl⟩, hk i (List.mem_range.1 hi)⟩
  length_le := by
    rw [List.length_map, List.length_range]
    exact hle
  before t ht hnot := by
    obtain ⟨⟨j, rfl⟩, hpj⟩ := ht
    have hkj : k ≤ j := by
      by_contra hlt
      exact hnot (List.mem_map.2 ⟨j, List.mem_range.2 (Nat.lt_of_not_le hlt), rfl⟩)
    refine ⟨?_, fun u hu => ?_⟩
    · rw [List.length_map, List.length_range]
      exact hstop.resolve_right (fun hnp => hnp (hp k j hkj hpj))
    · obtain ⟨i, hi, rfl⟩ := List.mem_map.1 hu
      exact hf ((List.mem_range.1 hi).trans_le hkj)

/-- **There are more than `n` elements** if the one that comes after `n` is one of them. -/
theorem lt_encard_iff (hf : StrictMono f) (hp : ∀ i j, i ≤ j → p (f j) → p (f i)) (n : ℕ) :
    (n : ℕ∞) < (rangeWith f p).encard ↔ p (f n) := by
  constructor
  · intro hlt
    by_contra hnp
    have hsub : rangeWith f p ⊆ f '' (Set.Iio n) := by
      rintro _ ⟨⟨i, rfl⟩, hpi⟩
      refine ⟨i, ?_, rfl⟩
      by_contra hle
      exact hnp (hp n i (not_lt.1 hle) hpi)
    have hcard : (f '' (Set.Iio n)).encard = n := by
      rw [hf.injective.encard_image, ← Finset.coe_Iio, Set.encard_coe_eq_coe_finsetCard,
        Nat.card_Iio]
    exact absurd (Set.encard_le_encard hsub) (by rw [hcard]; exact not_le.2 hlt)
  · intro hpn
    have hsub : f '' (Set.Iic n) ⊆ rangeWith f p := by
      rintro _ ⟨i, hi, rfl⟩
      exact ⟨⟨i, rfl⟩, hp i n hi hpn⟩
    have hcard : (f '' (Set.Iic n)).encard = (n + 1 : ℕ) := by
      rw [hf.injective.encard_image, ← Finset.coe_Iic, Set.encard_coe_eq_coe_finsetCard,
        Nat.card_Iic]
    refine lt_of_lt_of_le ?_ (Set.encard_le_encard hsub)
    rw [hcard]
    exact_mod_cast Nat.lt_succ_self n

end Enumeration

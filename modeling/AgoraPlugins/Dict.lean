import Mathlib.Data.Finset.Basic
import Mathlib.Data.List.AList
import Mathlib.Tactic.Common

/-!
# Dictionaries

A dictionary is an `AList`: a list of entries in which no key occurs twice, so
that a lookup does not depend on where an entry stands. The order the entries
were made in is nowhere observed here, and the operations below are read
through their lookups alone.

Besides what `AList` has, programs map the values of a dictionary, forget a set
of its keys, and build one from a list of pairs in which a later pair overwrites
an earlier one.
-/

/-- A dictionary from `κ` to `ν`. -/
abbrev Dict (κ ν : Type) := AList (fun _ : κ => ν)

namespace Dict

variable {κ ν μ : Type} [DecidableEq κ]

theorem dlookup_cons_ne {k k' : κ} (h : k ≠ k') (v : ν) (entries : List (Σ _ : κ, ν)) :
    List.dlookup k (⟨k', v⟩ :: entries) = List.dlookup k entries :=
  List.dlookup_cons_ne entries ⟨k', v⟩ h

/-- The dictionary with `f` applied to every value. -/
def mapValues (f : ν → μ) (d : Dict κ ν) : Dict κ μ where
  entries := d.entries.map (fun e => ⟨e.1, f e.2⟩)
  nodupKeys := by
    have hkeys : (d.entries.map (fun e => (⟨e.1, f e.2⟩ : Σ _ : κ, μ))).keys = d.keys := by
      unfold List.keys AList.keys List.keys
      rw [List.map_map]
      rfl
    show List.Nodup _
    rw [hkeys]
    exact d.keys_nodup

@[simp] theorem lookup_mapValues (f : ν → μ) (d : Dict κ ν) (k : κ) :
    (mapValues f d).lookup k = (d.lookup k).map f := by
  obtain ⟨entries, h⟩ := d
  show List.dlookup k (entries.map (fun e => (⟨e.1, f e.2⟩ : Σ _ : κ, μ)))
    = (List.dlookup k entries).map f
  clear h
  induction entries with
  | nil => rfl
  | cons e entries ih =>
    obtain ⟨k', v⟩ := e
    rw [List.map_cons]
    by_cases hk : k = k'
    · subst hk
      rw [List.dlookup_cons_eq, List.dlookup_cons_eq]
      rfl
    · rw [dlookup_cons_ne hk, dlookup_cons_ne hk]
      exact ih

theorem mapValues_insert (f : ν → μ) (d : Dict κ ν) (k : κ) (v : ν) :
    mapValues f (d.insert k v) = (mapValues f d).insert k (f v) := by
  refine AList.ext ?_
  show ((⟨k, v⟩ :: List.kerase k d.entries).map (fun e => (⟨e.1, f e.2⟩ : Σ _ : κ, μ)))
    = ⟨k, f v⟩ :: List.kerase k (d.entries.map (fun e => ⟨e.1, f e.2⟩))
  unfold List.kerase
  rw [List.eraseP_map]
  rfl

/-- The dictionary without the keys of a set. -/
def without (ks : Finset κ) (d : Dict κ ν) : Dict κ ν where
  entries := d.entries.filter (fun e => e.1 ∉ ks)
  nodupKeys := d.nodupKeys.sublist List.filter_sublist

theorem lookup_without (ks : Finset κ) (d : Dict κ ν) (k : κ) :
    (without ks d).lookup k = if k ∈ ks then none else d.lookup k := by
  obtain ⟨entries, h⟩ := d
  show List.dlookup k (entries.filter _) = if k ∈ ks then none else List.dlookup k entries
  clear h
  induction entries with
  | nil => cases Decidable.em (k ∈ ks) <;> simp [*]
  | cons e entries ih =>
    obtain ⟨k', v⟩ := e
    rw [List.filter_cons]
    by_cases hk : k = k'
    · subst hk
      by_cases hmem : k ∈ ks
      · rw [if_neg (by simpa using hmem), ih, if_pos hmem, if_pos hmem]
      · rw [if_pos (by simpa using hmem), if_neg hmem, List.dlookup_cons_eq,
          List.dlookup_cons_eq]
    · rw [dlookup_cons_ne hk v entries]
      by_cases hmem : k' ∈ ks
      · rw [if_neg (by simpa using hmem), ih]
      · rw [if_pos (by simpa using hmem), dlookup_cons_ne hk, ih]

@[simp] theorem lookup_without_of_mem {ks : Finset κ} {d : Dict κ ν} {k : κ} (h : k ∈ ks) :
    (without ks d).lookup k = none := by
  rw [lookup_without, if_pos h]

@[simp] theorem lookup_without_of_notMem {ks : Finset κ} {d : Dict κ ν} {k : κ}
    (h : k ∉ ks) : (without ks d).lookup k = d.lookup k := by
  rw [lookup_without, if_neg h]

/-- Rebuilding a dictionary from its last entry to its first gives the same entries. -/
theorem foldr_insert (d : Dict κ ν) :
    d.entries.foldr (fun e d => AList.insert e.1 e.2 d) ∅ = d := by
  obtain ⟨entries, hnodup⟩ := d
  induction entries with
  | nil => rfl
  | cons e entries ih =>
    have hfresh := List.nodupKeys_cons.1 hnodup
    rw [List.foldr_cons, ih hfresh.2]
    refine AList.ext ?_
    rw [AList.entries_insert_of_notMem hfresh.1]

/-- The pairs of a list as a dictionary, a later pair overwriting an earlier one
of its key. -/
def ofList (entries : List (Σ _ : κ, ν)) : Dict κ ν :=
  entries.foldl (fun d e => d.insert e.1 e.2) ∅

theorem lookup_foldl_insert (entries : List (Σ _ : κ, ν)) (h : entries.NodupKeys)
    (d : Dict κ ν) (k : κ) :
    (entries.foldl (fun d e => d.insert e.1 e.2) d).lookup k
      = (entries.dlookup k).or (d.lookup k) := by
  induction entries generalizing d with
  | nil => rfl
  | cons e entries ih =>
    obtain ⟨k', v⟩ := e
    rw [List.foldl_cons, ih h.tail]
    by_cases hk : k = k'
    · subst hk
      have hnone : entries.dlookup k = none :=
        List.dlookup_eq_none.2 (List.nodupKeys_cons.1 h).1
      rw [hnone, List.dlookup_cons_eq, AList.lookup_insert]
      rfl
    · rw [dlookup_cons_ne hk, AList.lookup_insert_ne hk]

/-- A dictionary built from entries without repeats looks up what is among
them. -/
theorem lookup_ofList {entries : List (Σ _ : κ, ν)} (h : entries.NodupKeys) (k : κ) :
    (ofList entries).lookup k = entries.dlookup k := by
  unfold ofList
  rw [lookup_foldl_insert entries h]
  cases entries.dlookup k <;> rfl

/-- **Rebuilding a dictionary** from its entries, in whatever order, changes no
lookup. -/
theorem lookup_ofList_of_perm {d : Dict κ ν} {entries : List (Σ _ : κ, ν)}
    (h : entries.Perm d.entries) (k : κ) : (ofList entries).lookup k = d.lookup k := by
  have hnodup : entries.NodupKeys := (List.perm_nodupKeys h).2 d.nodupKeys
  rw [lookup_ofList hnodup]
  exact List.perm_dlookup k hnodup h

/-- The value of the last pair with this key. -/
def last (k : κ) : List (κ × ν) → Option ν
  | [] => none
  | e :: pairs => (last k pairs).or (if e.1 = k then some e.2 else none)

theorem mem_of_last {k : κ} {v : ν} {pairs : List (κ × ν)} (h : last k pairs = some v) :
    (k, v) ∈ pairs := by
  induction pairs with
  | nil => cases h
  | cons e pairs ih =>
    rcases Option.or_eq_some_iff.1 h with hlast | ⟨_, hif⟩
    · exact List.mem_cons_of_mem e (ih hlast)
    · split at hif
      next hk =>
        cases hif
        rw [← hk]
        exact List.mem_cons_self
      next => cases hif

/-- The dictionary with the pairs of a list inserted one after the other. -/
def update (d : Dict κ ν) (pairs : List (κ × ν)) : Dict κ ν :=
  pairs.foldl (fun d e => d.insert e.1 e.2) d

/-- An update is looked up first. -/
theorem lookup_update (d : Dict κ ν) (pairs : List (κ × ν)) (k : κ) :
    (update d pairs).lookup k = (last k pairs).or (d.lookup k) := by
  induction pairs generalizing d with
  | nil => rfl
  | cons e pairs ih =>
    show (update (d.insert e.1 e.2) pairs).lookup k
      = ((last k pairs).or (if e.1 = k then some e.2 else none)).or (d.lookup k)
    rw [ih, Option.or_assoc]
    by_cases hk : e.1 = k
    · rw [← hk, if_pos rfl, AList.lookup_insert]
      rfl
    · rw [if_neg hk, AList.lookup_insert_ne (Ne.symm hk)]
      rfl

theorem last_append (k : κ) (pairs more : List (κ × ν)) :
    last k (pairs ++ more) = (last k more).or (last k pairs) := by
  induction pairs with
  | nil => exact (Option.or_none).symm
  | cons e pairs ih =>
    show (last k (pairs ++ more)).or _ = (last k more).or ((last k pairs).or _)
    rw [ih, Option.or_assoc]

/-- The entries whose key is wanted. -/
def restrict (p : κ → Bool) (d : Dict κ ν) : Dict κ ν where
  entries := d.entries.filter (fun e => p e.1)
  nodupKeys := d.nodupKeys.sublist List.filter_sublist

omit [DecidableEq κ] in
theorem mem_keys_restrict {p : κ → Bool} {d : Dict κ ν} {k : κ} :
    k ∈ (restrict p d).keys ↔ k ∈ d.keys ∧ p k = true := by
  unfold restrict AList.keys List.keys
  simp only [List.mem_map, List.mem_filter]
  constructor
  · rintro ⟨e, ⟨he, hp⟩, rfl⟩
    exact ⟨⟨e, he, rfl⟩, hp⟩
  · rintro ⟨⟨e, he, rfl⟩, hp⟩
    exact ⟨e, ⟨he, hp⟩, rfl⟩

omit [DecidableEq κ] in
/-- Where all keys are wanted, all entries are. -/
theorem restrict_eq_self {p : κ → Bool} {d : Dict κ ν} (h : ∀ k ∈ d.keys, p k = true) :
    restrict p d = d := by
  refine AList.ext ?_
  show d.entries.filter _ = d.entries
  rw [List.filter_eq_self]
  exact fun e he => h e.1 (List.mem_map_of_mem he)

end Dict

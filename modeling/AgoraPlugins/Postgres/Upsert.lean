import Mathlib.Data.Finset.Basic
import Mathlib.Data.List.Induction
import Mathlib.Data.Multiset.AddSub
import Mathlib.Data.Multiset.Basic
import Mathlib.Logic.Function.Basic
import Mathlib.Tactic.Common

/-!
# Upserts

`INSERT … ON CONFLICT (keys) DO UPDATE SET c = EXCLUDED.c, …`, and `DO NOTHING`
when there is no column to set, on a table with a unique constraint on `keys`.

A table is its rows by key, and the rows whose key contains a NULL, which
conflict with nothing. There is no order among rows. A statement proposes
tuples, their defaults filled in, and processes them in turn; it may not update
a row that it has inserted or updated itself (SQLSTATE 21000).

Three questions are answered. A statement does what one statement per tuple would
do unless two of its tuples have the same key (`execute_eq`). Upserts done in
another order lead to the same table exactly when, for each key and column, the
last to set it sets the same value (`upserts_eq_iff`). And an upsert may be done
again, and before or after one with another key (`upsert_upsert`, `upsert_comm`).
-/

namespace Upsert

variable {κ ν : Type}

/-- A row: the value of each column, `none` for NULL. -/
abbrev Tuple (κ ν : Type) := κ → Option ν

/-- The values of the key columns. -/
abbrev Key (ν : Type) := List (Option ν)

/-- **A table.** -/
@[ext] structure Table (κ ν : Type) where
  byKey : Key ν → Option (Tuple κ ν)
  keyless : Multiset (Tuple κ ν)

/-- **What is proposed for a row**: its tuple, and the columns to set where it
conflicts. -/
structure Proposal (κ ν : Type) where
  updates : Finset κ
  tuple : Tuple κ ν

/-- What the database raises. -/
inductive SqlError where
  /-- `42601` -/
  | syntaxError
  /-- `21000`: the command cannot affect a row a second time -/
  | cardinalityViolation
  deriving DecidableEq

variable [DecidableEq κ] [DecidableEq ν] (keys : List κ)

/-- The key of a tuple, if there is no NULL in it. -/
def key (tuple : Tuple κ ν) : Option (Key ν) :=
  if ∀ c ∈ keys, tuple c ≠ none then some (keys.map tuple) else none

/-- The row a proposal leads to, from the one it conflicts with if there is
one. -/
def merge (p : Proposal κ ν) : Option (Tuple κ ν) → Tuple κ ν
  | none => p.tuple
  | some old => fun c => if c ∈ p.updates then p.tuple c else old c

/-- **One upsert.** -/
def upsert (t : Table κ ν) (p : Proposal κ ν) : Table κ ν :=
  match key keys p.tuple with
  | none => { t with keyless := p.tuple ::ₘ t.keyless }
  | some k => { t with byKey := Function.update t.byKey k (some (merge p (t.byKey k))) }

/-- Upserts one after the other. -/
def upserts (t : Table κ ν) (ps : List (Proposal κ ν)) : Table κ ν :=
  ps.foldl (upsert keys) t

/-- **A statement**, from where it is: the keys of the rows it has inserted or
updated, the table, and the tuples still to come. -/
def executeFrom (updates : Finset κ) :
    List (Key ν) → Table κ ν → List (Tuple κ ν) → Except SqlError (Table κ ν)
  | _, t, [] => .ok t
  | touched, t, tuple :: tuples =>
    match key keys tuple with
    | none => executeFrom updates touched (upsert keys t ⟨updates, tuple⟩) tuples
    | some k =>
      if (t.byKey k).isNone then
        executeFrom updates (k :: touched) (upsert keys t ⟨updates, tuple⟩) tuples
      else if updates = ∅ then executeFrom updates touched t tuples
      else if k ∈ touched then .error .cardinalityViolation
      else executeFrom updates (k :: touched) (upsert keys t ⟨updates, tuple⟩) tuples

/-- **A statement.** -/
def execute (updates : Finset κ) (t : Table κ ν) (tuples : List (Tuple κ ν)) :
    Except SqlError (Table κ ν) :=
  executeFrom keys updates [] t tuples

/-! ## A statement and the upserts of its tuples -/

/-- The keys proposed, in order. -/
def keysOf (tuples : List (Tuple κ ν)) : List (Key ν) :=
  tuples.filterMap (key keys)

/-- The tuples of a statement, as proposals of their own. -/
def proposals (updates : Finset κ) (tuples : List (Tuple κ ν)) : List (Proposal κ ν) :=
  tuples.map (fun tuple => ⟨updates, tuple⟩)

variable {keys}

theorem upsert_of_key_none {t : Table κ ν} {p : Proposal κ ν} (h : key keys p.tuple = none) :
    upsert keys t p = { t with keyless := p.tuple ::ₘ t.keyless } := by
  unfold upsert
  rw [h]

theorem upsert_of_key_some {t : Table κ ν} {p : Proposal κ ν} {k : Key ν}
    (h : key keys p.tuple = some k) :
    upsert keys t p
      = { t with byKey := Function.update t.byKey k (some (merge p (t.byKey k))) } := by
  unfold upsert
  rw [h]

/-- Where there is nothing to set, a conflict changes nothing. -/
theorem upsert_of_updates_empty {t : Table κ ν} {tuple : Tuple κ ν} {k : Key ν}
    (h : key keys tuple = some k) (hk : (t.byKey k).isNone = false) :
    upsert keys t ⟨∅, tuple⟩ = t := by
  obtain ⟨old, hold⟩ := Option.isSome_iff_exists.1 (Option.isNone_eq_false_iff.1 hk)
  have hsame : some (merge ⟨∅, tuple⟩ (t.byKey k)) = t.byKey k := by
    rw [hold]
    simp [merge]
  rw [upsert_of_key_some h, hsame, Function.update_eq_self]

/-- An upsert leaves the other keys alone and fills its own. -/
theorem isSome_upsert {t : Table κ ν} {p : Proposal κ ν} {k : Key ν}
    (h : (t.byKey k).isSome ∨ key keys p.tuple = some k) :
    ((upsert keys t p).byKey k).isSome := by
  cases hp : key keys p.tuple with
  | none =>
    rw [upsert_of_key_none hp]
    rcases h with h | h
    · exact h
    · rw [hp] at h
      cases h
  | some k' =>
    rw [upsert_of_key_some hp]
    show (Function.update t.byKey k' _ k).isSome = true
    by_cases hk : k = k'
    · rw [hk, Function.update_self]
      rfl
    · rw [Function.update_of_ne hk]
      rcases h with h | h
      · exact h
      · rw [hp] at h
        exact absurd (Option.some.inj h).symm hk

/-- No key comes twice, and none has been touched. -/
def Clear (touched ks : List (Key ν)) : Prop :=
  ks.Nodup ∧ ∀ k ∈ ks, k ∉ touched

omit [DecidableEq ν] in
theorem clear_cons {touched ks : List (Key ν)} {k : Key ν} :
    Clear touched (k :: ks) ↔ k ∉ touched ∧ Clear (k :: touched) ks := by
  unfold Clear
  simp only [List.nodup_cons, List.mem_cons, forall_eq_or_imp, not_or]
  constructor
  · rintro ⟨⟨hk, hks⟩, hkt, ht⟩
    refine ⟨hkt, hks, fun k' hk' => ⟨?_, ht k' hk'⟩⟩
    rintro rfl
    exact hk hk'
  · rintro ⟨hkt, hks, ht⟩
    exact ⟨⟨fun hk => (ht k hk).1 rfl, hks⟩, hkt, fun k' hk' => (ht k' hk').2⟩

theorem upserts_cons (t : Table κ ν) (p : Proposal κ ν) (ps : List (Proposal κ ν)) :
    upserts keys t (p :: ps) = upserts keys (upsert keys t p) ps := rfl

theorem upserts_append (t : Table κ ν) (ps qs : List (Proposal κ ν)) :
    upserts keys t (ps ++ qs) = upserts keys (upserts keys t ps) qs :=
  List.foldl_append

/-- **A statement that repeats no key** does the upserts of its tuples, and so
does one with nothing to set. -/
theorem executeFrom_of_clear {updates : Finset κ} :
    ∀ (tuples : List (Tuple κ ν)) (touched : List (Key ν)) (t : Table κ ν),
      updates = ∅ ∨ Clear touched (keysOf keys tuples) →
      executeFrom keys updates touched t tuples
        = .ok (upserts keys t (proposals updates tuples))
  | [], _, _, _ => rfl
  | tuple :: tuples, touched, t, h => by
    unfold executeFrom proposals
    rw [List.map_cons, upserts_cons]
    cases hkey : key keys tuple with
    | none =>
      have hks : keysOf keys (tuple :: tuples) = keysOf keys tuples :=
        List.filterMap_cons_none hkey
      rw [hks] at h
      exact executeFrom_of_clear tuples touched _ h
    | some k =>
      have hks : keysOf keys (tuple :: tuples) = k :: keysOf keys tuples :=
        List.filterMap_cons_some hkey
      rw [hks, clear_cons] at h
      have hnext : updates = ∅ ∨ Clear (k :: touched) (keysOf keys tuples) :=
        h.imp_right And.right
      dsimp only
      split
      · exact executeFrom_of_clear tuples (k :: touched) _ hnext
      · rename_i hsome
        split
        · rename_i hupdates
          subst hupdates
          rw [upsert_of_updates_empty hkey (Bool.not_eq_true _ |>.mp hsome)]
          exact executeFrom_of_clear tuples touched t (.inl rfl)
        · rename_i hupdates
          have hclear := h.resolve_left hupdates
          rw [if_neg hclear.1]
          exact executeFrom_of_clear tuples (k :: touched) _ hnext

/-- **A statement that sets columns and repeats a key fails.** -/
theorem executeFrom_of_not_clear {updates : Finset κ} (hupdates : updates ≠ ∅) :
    ∀ (tuples : List (Tuple κ ν)) (touched : List (Key ν)) (t : Table κ ν),
      (∀ k ∈ touched, (t.byKey k).isSome) → ¬ Clear touched (keysOf keys tuples) →
      executeFrom keys updates touched t tuples = .error .cardinalityViolation
  | [], touched, t, _, h => absurd ⟨List.nodup_nil, nofun⟩ h
  | tuple :: tuples, touched, t, ht, h => by
    unfold executeFrom
    cases hkey : key keys tuple with
    | none =>
      have hks : keysOf keys (tuple :: tuples) = keysOf keys tuples :=
        List.filterMap_cons_none hkey
      rw [hks] at h
      refine executeFrom_of_not_clear hupdates tuples touched _ (fun k hk => ?_) h
      exact isSome_upsert (.inl (ht k hk))
    | some k =>
      have hks : keysOf keys (tuple :: tuples) = k :: keysOf keys tuples :=
        List.filterMap_cons_some hkey
      rw [hks, clear_cons, not_and_or, not_not] at h
      have hnext : ∀ k' ∈ k :: touched,
          ((upsert keys t ⟨updates, tuple⟩).byKey k').isSome := by
        intro k' hk'
        rcases List.mem_cons.1 hk' with rfl | hk'
        · exact isSome_upsert (.inr hkey)
        · exact isSome_upsert (.inl (ht k' hk'))
      dsimp only
      by_cases htouched : k ∈ touched
      · have hsome : (t.byKey k).isNone = false :=
          Option.isNone_eq_false_iff.2 (ht k htouched)
        rw [hsome, if_neg Bool.false_ne_true, if_neg hupdates, if_pos htouched]
      · have hrest : executeFrom keys updates (k :: touched)
            (upsert keys t ⟨updates, tuple⟩) tuples = .error .cardinalityViolation :=
          executeFrom_of_not_clear hupdates tuples (k :: touched) _ hnext
            (h.resolve_left htouched)
        rw [hrest, if_neg hupdates, if_neg htouched, ite_self]

/-- **What a statement does**: the upserts of its tuples, or it fails because a
key is proposed twice. -/
theorem execute_eq (updates : Finset κ) (t : Table κ ν) (tuples : List (Tuple κ ν)) :
    execute keys updates t tuples =
      if updates = ∅ ∨ (keysOf keys tuples).Nodup then
        .ok (upserts keys t (proposals updates tuples))
      else .error .cardinalityViolation := by
  have hclear : Clear [] (keysOf keys tuples) ↔ (keysOf keys tuples).Nodup :=
    ⟨And.left, fun h => ⟨h, nofun⟩⟩
  unfold execute
  split
  · rename_i h
    exact executeFrom_of_clear tuples [] t (h.imp_right hclear.2)
  · rename_i h
    rw [not_or] at h
    exact executeFrom_of_not_clear h.1 tuples [] t nofun (fun hc => h.2 (hclear.1 hc))

/-! ## Upserts in another order -/

variable (keys) in
/-- The proposals for a key. -/
def withKey (k : Key ν) (ps : List (Proposal κ ν)) : List (Proposal κ ν) :=
  ps.filter (fun p => key keys p.tuple = some k)

/-- The value that is set last. -/
def lastUpdate (c : κ) (ps : List (Proposal κ ν)) : Option (Option ν) :=
  (ps.filter (fun p => c ∈ p.updates)).getLast?.map (fun p => p.tuple c)

/-- **Proposals agree on what they do not set**: two for one key have the same
default there, or the value of a key column. -/
def Agree (keys : List κ) (ps : List (Proposal κ ν)) : Prop :=
  ∀ p ∈ ps, ∀ q ∈ ps, key keys p.tuple = key keys q.tuple → key keys p.tuple ≠ none →
    ∀ c, c ∉ p.updates → c ∉ q.updates → p.tuple c = q.tuple c

omit [DecidableEq ν] in
theorem lastUpdate_concat (c : κ) (ps : List (Proposal κ ν)) (p : Proposal κ ν) :
    lastUpdate c (ps ++ [p])
      = if c ∈ p.updates then some (p.tuple c) else lastUpdate c ps := by
  unfold lastUpdate
  rw [List.filter_append]
  split
  · rename_i h
    simp [h]
  · rename_i h
    simp [h]

omit [DecidableEq ν] in
theorem lastUpdate_eq_none {c : κ} {ps : List (Proposal κ ν)} :
    lastUpdate c ps = none ↔ ∀ p ∈ ps, c ∉ p.updates := by
  simp [lastUpdate]

/-- The rows without a key are collected. -/
theorem keyless_upserts (t : Table κ ν) (ps : List (Proposal κ ν)) :
    (upserts keys t ps).keyless
      = ((ps.filter (fun p => key keys p.tuple = none)).map Proposal.tuple : Multiset (Tuple κ ν))
        + t.keyless := by
  induction ps generalizing t with
  | nil => simp [upserts]
  | cons p ps ih =>
    rw [upserts_cons, ih]
    cases hp : key keys p.tuple with
    | none =>
      rw [upsert_of_key_none hp]
      simp [hp, ← Multiset.cons_coe]
    | some k =>
      rw [upsert_of_key_some hp]
      simp [hp]

/-- The row of a key is what the proposals for it make of it, one after the
other. -/
theorem byKey_upserts (t : Table κ ν) (ps : List (Proposal κ ν)) (k : Key ν) :
    (upserts keys t ps).byKey k
      = (withKey keys k ps).foldl (fun old p => some (merge p old)) (t.byKey k) := by
  induction ps generalizing t with
  | nil => rfl
  | cons p ps ih =>
    rw [upserts_cons, ih]
    unfold withKey
    cases hp : key keys p.tuple with
    | none =>
      rw [upsert_of_key_none hp]
      simp [hp]
    | some k' =>
      rw [upsert_of_key_some hp]
      by_cases hk : k' = k
      · subst hk
        simp [hp]
      · simp [hp, hk, Function.update_of_ne (Ne.symm hk)]

omit [DecidableEq ν] in
/-- **The last to set a column wins**, on a row that was there. -/
theorem foldl_merge_some (ps : List (Proposal κ ν)) (old : Tuple κ ν) :
    ps.foldl (fun old p => some (merge p old)) (some old)
      = some (fun c => (lastUpdate c ps).getD (old c)) := by
  induction ps using List.reverseRecOn with
  | nil => rfl
  | append_singleton ps p ih =>
    rw [List.foldl_append, ih, List.foldl_cons, List.foldl_nil, merge]
    congr 1
    funext c
    rw [lastUpdate_concat]
    split <;> rfl

omit [DecidableEq ν] in
/-- The first of the proposals counts where no later one sets the column. -/
theorem lastUpdate_cons (c : κ) (p : Proposal κ ν) (ps : List (Proposal κ ν)) :
    lastUpdate c (p :: ps)
      = (lastUpdate c ps).orElse (fun _ => if c ∈ p.updates then some (p.tuple c) else none) := by
  induction ps using List.reverseRecOn with
  | nil =>
    have h := lastUpdate_concat c [] p
    rw [List.nil_append] at h
    rw [h]
    rfl
  | append_singleton ps q ih =>
    rw [← List.cons_append, lastUpdate_concat, lastUpdate_concat, ih]
    split <;> rfl

omit [DecidableEq ν] in
/-- The same where the first of the proposals has inserted the row. -/
theorem foldl_merge_none (p : Proposal κ ν) (ps : List (Proposal κ ν)) :
    (p :: ps).foldl (fun old p => some (merge p old)) none
      = some (fun c => (lastUpdate c (p :: ps)).getD (p.tuple c)) := by
  rw [List.foldl_cons, merge, foldl_merge_some]
  congr 1
  funext c
  rw [lastUpdate_cons]
  cases lastUpdate c ps with
  | some v => rfl
  | none =>
    show p.tuple c = Option.getD (if c ∈ p.updates then some (p.tuple c) else none) (p.tuple c)
    split <;> rfl

omit [DecidableEq κ] [DecidableEq ν] in
/-- Two rows are the same when what sets their columns is, if they agree on what
is not set. -/
theorem getD_eq_iff {a b : κ → Option (Option ν)} {u v : Tuple κ ν}
    (hab : ∀ c, a c = none ↔ b c = none) (huv : ∀ c, a c = none → u c = v c) :
    (fun c => (a c).getD (u c)) = (fun c => (b c).getD (v c)) ↔ ∀ c, a c = b c := by
  constructor
  · intro h c
    have hc := congrFun h c
    cases ha : a c with
    | none => exact ((hab c).1 ha).symm
    | some x =>
      cases hb : b c with
      | none =>
        rw [(hab c).2 hb] at ha
        cases ha
      | some y =>
        rw [ha, hb] at hc
        exact congrArg some hc
  · intro h
    funext c
    rw [← h c]
    cases ha : a c with
    | none => exact huv c ha
    | some x => rfl

omit [DecidableEq ν] in
/-- The proposals for a key, in another order: the same columns are set. -/
theorem lastUpdate_eq_none_of_perm {ps qs : List (Proposal κ ν)} (h : ps.Perm qs) (c : κ) :
    lastUpdate c ps = none ↔ lastUpdate c qs = none := by
  rw [lastUpdate_eq_none, lastUpdate_eq_none]
  exact forall_congr' (fun p => imp_congr_left h.mem_iff)

/-- What two orders make of the row of a key. -/
theorem byKey_upserts_eq_iff {ps qs : List (Proposal κ ν)} (hperm : ps.Perm qs)
    (hagree : Agree keys ps) (t : Table κ ν) (k : Key ν) :
    (upserts keys t ps).byKey k = (upserts keys t qs).byKey k
      ↔ ∀ c, lastUpdate c (withKey keys k ps) = lastUpdate c (withKey keys k qs) := by
  have hfilter : (withKey keys k ps).Perm (withKey keys k qs) := hperm.filter _
  have hnone := lastUpdate_eq_none_of_perm hfilter
  rw [byKey_upserts, byKey_upserts]
  cases t.byKey k with
  | some old =>
    rw [foldl_merge_some, foldl_merge_some, Option.some.injEq]
    exact getD_eq_iff hnone (fun _ _ => rfl)
  | none =>
    cases hps : withKey keys k ps with
    | nil =>
      rw [hps] at hfilter
      rw [List.nil_perm.1 hfilter]
      simp
    | cons p ps' =>
      cases hqs : withKey keys k qs with
      | nil =>
        rw [hps, hqs] at hfilter
        cases List.perm_nil.1 hfilter
      | cons q qs' =>
        rw [foldl_merge_none, foldl_merge_none, Option.some.injEq, ← hps, ← hqs]
        refine getD_eq_iff hnone (fun c hc => ?_)
        have hp : p ∈ withKey keys k ps := by simp [hps]
        have hq : q ∈ withKey keys k ps := by
          rw [hfilter.mem_iff, hqs]
          exact List.mem_cons_self
        have hupdates := lastUpdate_eq_none.1 hc
        have hpkey : key keys p.tuple = some k := of_decide_eq_true (List.mem_filter.1 hp).2
        have hqkey : key keys q.tuple = some k := of_decide_eq_true (List.mem_filter.1 hq).2
        refine hagree p (List.mem_filter.1 hp).1 q (List.mem_filter.1 hq).1
          (hpkey.trans hqkey.symm) ?_ c (hupdates p hp) (hupdates q hq)
        rw [hpkey]
        exact Option.some_ne_none k

/-- **Upserts in another order** lead to the same table exactly when, for every
key and column, the last to set it sets the same value. -/
theorem upserts_eq_iff {ps qs : List (Proposal κ ν)} (hperm : ps.Perm qs)
    (hagree : Agree keys ps) (t : Table κ ν) :
    upserts keys t ps = upserts keys t qs
      ↔ ∀ k c, lastUpdate c (withKey keys k ps) = lastUpdate c (withKey keys k qs) := by
  constructor
  · intro h k
    exact (byKey_upserts_eq_iff hperm hagree t k).1 (by rw [h])
  · intro h
    refine Table.ext (funext (fun k => (byKey_upserts_eq_iff hperm hagree t k).2 (h k))) ?_
    rw [keyless_upserts, keyless_upserts]
    congr 1
    exact Multiset.coe_eq_coe.2 ((hperm.filter _).map _)

/-! ## Upserts that may be repeated -/

omit [DecidableEq ν] in
/-- What is set twice is set once. -/
theorem merge_merge (p : Proposal κ ν) (old : Option (Tuple κ ν)) :
    merge p (some (merge p old)) = merge p old := by
  cases old with
  | none =>
    funext c
    show (if c ∈ p.updates then p.tuple c else p.tuple c) = p.tuple c
    rw [ite_self]
  | some old =>
    funext c
    show (if c ∈ p.updates then p.tuple c else if c ∈ p.updates then p.tuple c else old c)
      = if c ∈ p.updates then p.tuple c else old c
    split <;> rfl

/-- An upsert with a key, done twice. -/
theorem upsert_upsert {p : Proposal κ ν} (h : key keys p.tuple ≠ none) (t : Table κ ν) :
    upsert keys (upsert keys t p) p = upsert keys t p := by
  obtain ⟨k, hk⟩ := Option.ne_none_iff_exists'.1 h
  rw [upsert_of_key_some hk, upsert_of_key_some hk]
  dsimp only
  rw [Function.update_self, merge_merge, Function.update_idem]

/-- Upserts with different keys, the other way round. -/
theorem upsert_comm {p q : Proposal κ ν} (hp : key keys p.tuple ≠ none)
    (hq : key keys q.tuple ≠ none) (hne : key keys p.tuple ≠ key keys q.tuple) (t : Table κ ν) :
    upsert keys (upsert keys t p) q = upsert keys (upsert keys t q) p := by
  obtain ⟨k, hk⟩ := Option.ne_none_iff_exists'.1 hp
  obtain ⟨l, hl⟩ := Option.ne_none_iff_exists'.1 hq
  have hkl : k ≠ l := by
    intro h
    rw [hk, hl, h] at hne
    exact hne rfl
  rw [upsert_of_key_some hk, upsert_of_key_some hl, upsert_of_key_some hl, upsert_of_key_some hk]
  dsimp only
  rw [Function.update_of_ne (Ne.symm hkl), Function.update_of_ne hkl, Function.update_comm hkl]

end Upsert

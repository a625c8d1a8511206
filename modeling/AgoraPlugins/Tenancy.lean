import AgoraPlugins.Machine

/-!
# Tenancies

A slot is held by one tenant at a time: a tenant enters when it is free, and
leaves before the next one enters. A log is read as the comings and goings of one
slot, entry by entry, and most entries may have nothing to do with it. Read from
the free slot it is a run of the machine `Tenancy.step`, which gets stuck where a
tenant enters an occupied slot.

From a log that does not get stuck one fact is drawn: whoever entered first left
before the other entered (`Tenancy.sublist_of_enter_enter`).
-/

open Machine

namespace Tenancy

variable {τ ε : Type*} [DecidableEq τ]

/-- What an entry of the log says about the slot. -/
inductive Move (τ : Type*) where
  | enter (tenant : τ)
  | leave (tenant : τ)

/-- **Who holds the slot** after one more entry. -/
def step (read : ε → Option (Move τ)) (holder : Option τ) (e : ε) : Option (Option τ) :=
  match read e, holder with
  | none, holder => some holder
  | some (.enter a), none => some (some a)
  | some (.leave a), some b => if a = b then some none else none
  | some (.enter _), some _ => none
  | some (.leave _), none => none

variable {read : ε → Option (Move τ)}

theorem run_concat {log : List ε} {holder : Option τ} {e : ε}
    (h : run (step read) none log = some holder) :
    run (step read) none (log ++ [e]) = step read holder e := by
  rw [run_append, h, Option.bind_some, run_cons]
  simp

/-- Where someone is in, nothing can happen but their leaving. -/
theorem step_some {a : τ} {e : ε} {next : Option τ} (h : step read (some a) e = some next) :
    read e = none ∧ next = some a ∨ read e = some (.leave a) := by
  unfold step at h
  cases hread : read e with
  | none =>
    rw [hread] at h
    exact .inl ⟨rfl, (Option.some.inj h).symm⟩
  | some move =>
    rw [hread] at h
    cases move with
    | enter b => cases h
    | leave b =>
      by_cases hb : b = a
      · exact .inr (by rw [hb])
      · dsimp only at h
        rw [if_neg hb] at h
        cases h

/-- Who enters is in. -/
theorem step_enter {a : τ} {e : ε} (he : read e = some (.enter a)) {start next : Option τ}
    (h : step read start e = some next) : next = some a := by
  unfold step at h
  rw [he] at h
  cases start with
  | none => exact (Option.some.inj h).symm
  | some b => cases h

/-- A tenant that is there leaves before anyone enters. -/
theorem exists_leave_of_enter {a b : τ} {y : ε} (hy : read y = some (.enter b))
    {log : List ε} {holder : Option τ} (h : run (step read) (some a) log = some holder)
    (hmem : y ∈ log) : ∃ z, read z = some (.leave a) ∧ [z, y].Sublist log := by
  induction log with
  | nil => cases hmem
  | cons e log ih =>
    rw [run_cons, Option.bind_eq_some_iff] at h
    obtain ⟨next, hstep, hrun⟩ := h
    have hne : read e ≠ some (.enter b) := by
      intro he
      rcases step_some hstep with ⟨hread, _⟩ | hread <;> rw [he] at hread <;> cases hread
    have hmem' : y ∈ log :=
      (List.mem_cons.1 hmem).resolve_left (fun heq => hne (heq ▸ hy))
    rcases step_some hstep with ⟨_, hnext⟩ | hleave
    · obtain ⟨z, hz, hsub⟩ := ih (hnext ▸ hrun) hmem'
      exact ⟨z, hz, hsub.cons e⟩
    · exact ⟨e, hleave, (List.singleton_sublist.2 hmem').cons_cons e⟩

/-- **The first tenant left before the second entered.** -/
theorem sublist_of_enter_enter {a b : τ} {x y : ε} (hx : read x = some (.enter a))
    (hy : read y = some (.enter b)) {log : List ε} {start holder : Option τ}
    (h : run (step read) start log = some holder) (hsub : [x, y].Sublist log) :
    ∃ z, read z = some (.leave a) ∧ [x, z, y].Sublist log := by
  induction log generalizing start with
  | nil => cases hsub
  | cons e log ih =>
    rw [run_cons, Option.bind_eq_some_iff] at h
    obtain ⟨next, hstep, hrun⟩ := h
    cases hsub with
    | cons _ hsub =>
      obtain ⟨z, hz, hsub⟩ := ih hrun hsub
      exact ⟨z, hz, hsub.cons e⟩
    | cons_cons _ hsub =>
      rw [step_enter hx hstep] at hrun
      obtain ⟨z, hz, hsub⟩ := exists_leave_of_enter hy hrun (List.singleton_sublist.1 hsub)
      exact ⟨z, hz, hsub.cons_cons x⟩

omit [DecidableEq τ] in
/-- Of two different entries of a log one comes first. -/
theorem sublist_or_sublist_of_mem {x y : ε} (hne : x ≠ y) {log : List ε} (hx : x ∈ log)
    (hy : y ∈ log) : [x, y].Sublist log ∨ [y, x].Sublist log := by
  induction log with
  | nil => cases hx
  | cons e log ih =>
    rcases List.mem_cons.1 hx with rfl | hx'
    · have hy' : y ∈ log := (List.mem_cons.1 hy).resolve_left (Ne.symm hne)
      exact .inl ((List.singleton_sublist.2 hy').cons_cons x)
    · rcases List.mem_cons.1 hy with rfl | hy'
      · exact .inr ((List.singleton_sublist.2 hx').cons_cons y)
      · exact (ih hx' hy').imp (fun h => h.cons e) (fun h => h.cons e)

end Tenancy

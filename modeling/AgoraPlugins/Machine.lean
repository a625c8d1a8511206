import Mathlib.Data.List.Basic
import Mathlib.Tactic.Common

/-!
# Machines and their runs

A machine is a partial function `step : σ → ε → Option σ`: what an event does
to a state, and `none` where the event cannot happen. A run is a list of
events, so it is a value that can be evaluated; what is proved about a machine
is proved about every such list.

Two readings of a run are used below. `AllStates` says that a property holds in
every state the run goes through, `AllSteps` that a relation holds of every
transition it takes. A *guard* is an `AllSteps` whose relation only looks at
the state and the event before the step: it says in which runs a law is
claimed. The rules turn what one step preserves into what a whole run
preserves (`allStates_of_step`, `allSteps_of_step`), once, so that no module
about a particular machine does its own induction over runs.
-/

namespace Machine

variable {σ ε : Type*} (step : σ → ε → Option σ)

/-- The state a list of events leads to, if every one of them can happen. -/
def run : σ → List ε → Option σ
  | s, [] => some s
  | s, e :: es => (step s e).bind (fun t => run t es)

@[simp] theorem run_nil (s : σ) : run step s [] = some s := rfl

theorem run_cons (s : σ) (e : ε) (es : List ε) :
    run step s (e :: es) = (step s e).bind (fun t => run step t es) := rfl

theorem run_append (s : σ) (es fs : List ε) :
    run step s (es ++ fs) = (run step s es).bind (fun t => run step t fs) := by
  induction es generalizing s with
  | nil => rfl
  | cons e es ih =>
    rw [List.cons_append, run_cons, run_cons]
    cases h : step s e with
    | none => rfl
    | some t => exact ih t

/-- **A relation holds of every transition** the run takes from `s`. A run that
gets stuck takes no further transition. -/
def AllSteps (R : σ → ε → σ → Prop) : σ → List ε → Prop
  | _, [] => True
  | s, e :: es => ∀ t, step s e = some t → R s e t ∧ AllSteps R t es

/-- **A property holds in every state** the run goes through, the first one
included. -/
def AllStates (P : σ → Prop) : σ → List ε → Prop
  | s, [] => P s
  | s, e :: es => P s ∧ ∀ t, step s e = some t → AllStates P t es

variable {step}

instance (R : σ → ε → σ → Prop) [∀ s e t, Decidable (R s e t)] :
    ∀ (s : σ) (es : List ε), Decidable (AllSteps step R s es)
  | _, [] => .isTrue trivial
  | s, e :: es =>
    match h : step s e with
    | none => .isTrue (fun t ht => by rw [h] at ht; cases ht)
    | some t =>
      have := instDecidableAllSteps R t es
      decidable_of_iff (R s e t ∧ AllSteps step R t es)
        ⟨fun hr u hu => by rw [h] at hu; cases hu; exact hr, fun hr => hr t h⟩

instance decidableAllStates (P : σ → Prop) [DecidablePred P] :
    ∀ (s : σ) (es : List ε), Decidable (AllStates step P s es)
  | s, [] => inferInstanceAs (Decidable (P s))
  | s, e :: es =>
    match h : step s e with
    | none => decidable_of_iff (P s)
        ⟨fun hp => ⟨hp, fun t ht => by rw [h] at ht; cases ht⟩, And.left⟩
    | some t =>
      have := decidableAllStates P t es
      decidable_of_iff (P s ∧ AllStates step P t es)
        ⟨fun hp => ⟨hp.1, fun u hu => by rw [h] at hu; cases hu; exact hp.2⟩,
          fun hp => ⟨hp.1, hp.2 t h⟩⟩

@[simp] theorem allSteps_nil (R : σ → ε → σ → Prop) (s : σ) :
    AllSteps step R s [] := trivial

theorem allSteps_cons {R : σ → ε → σ → Prop} {s t : σ} {e : ε} {es : List ε}
    (h : step s e = some t) :
    AllSteps step R s (e :: es) ↔ R s e t ∧ AllSteps step R t es := by
  constructor
  · intro hr
    exact hr t h
  · intro hr u hu
    rw [h] at hu
    cases hu
    exact hr

theorem AllStates.head {P : σ → Prop} {s : σ} {es : List ε}
    (h : AllStates step P s es) : P s := by
  cases es with
  | nil => exact h
  | cons e es => exact h.1

/-- What holds in every state of a run holds in its last one. -/
theorem AllStates.last {P : σ → Prop} {s t : σ} {es : List ε}
    (h : AllStates step P s es) (hr : run step s es = some t) : P t := by
  induction es generalizing s with
  | nil =>
    rw [run_nil, Option.some.injEq] at hr
    exact hr ▸ h
  | cons e es ih =>
    rw [run_cons, Option.bind_eq_some_iff] at hr
    obtain ⟨u, hu, hr⟩ := hr
    exact ih (h.2 u hu) hr

theorem AllStates.mono {P Q : σ → Prop} (hpq : ∀ s, P s → Q s) {s : σ} {es : List ε}
    (h : AllStates step P s es) : AllStates step Q s es := by
  induction es generalizing s with
  | nil => exact hpq s h
  | cons e es ih => exact ⟨hpq s h.1, fun t ht => ih (h.2 t ht)⟩

theorem AllStates.and {P Q : σ → Prop} {s : σ} {es : List ε} (h : AllStates step P s es)
    (h' : AllStates step Q s es) : AllStates step (fun s => P s ∧ Q s) s es := by
  induction es generalizing s with
  | nil => exact ⟨h, h'⟩
  | cons e es ih => exact ⟨⟨h.1, h'.1⟩, fun t ht => ih (h.2 t ht) (h'.2 t ht)⟩

theorem AllSteps.mono {R S : σ → ε → σ → Prop} (hrs : ∀ s e t, R s e t → S s e t)
    {s : σ} {es : List ε} (h : AllSteps step R s es) : AllSteps step S s es := by
  induction es generalizing s with
  | nil => trivial
  | cons e es ih =>
    intro t ht
    exact ⟨hrs s e t (h t ht).1, ih (h t ht).2⟩

theorem AllSteps.and {R S : σ → ε → σ → Prop} {s : σ} {es : List ε} (h : AllSteps step R s es)
    (h' : AllSteps step S s es) : AllSteps step (fun s e t => R s e t ∧ S s e t) s es := by
  induction es generalizing s with
  | nil => trivial
  | cons e es ih =>
    intro t ht
    exact ⟨⟨(h t ht).1, (h' t ht).1⟩, ih (h t ht).2 (h' t ht).2⟩

/-- What holds in every state of a run holds before and after every transition. -/
theorem AllStates.steps {P : σ → Prop} {s : σ} {es : List ε} (h : AllStates step P s es) :
    AllSteps step (fun s _ t => P s ∧ P t) s es := by
  induction es generalizing s with
  | nil => trivial
  | cons e es ih =>
    intro t ht
    exact ⟨⟨h.1, (h.2 t ht).head⟩, ih (h.2 t ht)⟩

/-- What holds of every transition holds of the last one. -/
theorem AllSteps.last {R : σ → ε → σ → Prop} {s t u : σ} {es : List ε} {e : ε}
    (h : AllSteps step R s (es ++ [e])) (hr : run step s es = some t) (hu : step t e = some u) :
    R t e u := by
  induction es generalizing s with
  | nil =>
    rw [run_nil, Option.some.injEq] at hr
    subst hr
    exact (h u hu).1
  | cons d es ih =>
    rw [run_cons, Option.bind_eq_some_iff] at hr
    obtain ⟨v, hv, hr⟩ := hr
    exact ih (h v hv).2 hr

/-! ## The induction over a run -/

/-- **The invariant rule.** What the first state has and every guarded step
keeps holds in every state of a guarded run. -/
theorem allStates_of_step {I : σ → Prop} {G : σ → ε → σ → Prop}
    (hstep : ∀ s e t, I s → G s e t → step s e = some t → I t) {s : σ}
    (hs : I s) {es : List ε} (hg : AllSteps step G s es) :
    AllStates step I s es := by
  induction es generalizing s with
  | nil => exact hs
  | cons e es ih =>
    refine ⟨hs, fun t ht => ?_⟩
    obtain ⟨hge, hgt⟩ := hg t ht
    exact ih (hstep s e t hs hge ht) hgt

/-- **The transition rule.** A relation that every guarded step from an
invariant state has, the invariant being kept, holds of every transition of a
guarded run. -/
theorem allSteps_of_step {I : σ → Prop} {G R : σ → ε → σ → Prop}
    (hstep : ∀ s e t, I s → G s e t → step s e = some t → I t ∧ R s e t) {s : σ}
    (hs : I s) {es : List ε} (hg : AllSteps step G s es) :
    AllSteps step R s es := by
  induction es generalizing s with
  | nil => trivial
  | cons e es ih =>
    intro t ht
    obtain ⟨hge, hgt⟩ := hg t ht
    obtain ⟨hi, hr⟩ := hstep s e t hs hge ht
    exact ⟨hr, ih hi hgt⟩

/-- The invariant rule for a run without a guard. -/
theorem allStates_of_invariant {I : σ → Prop}
    (hstep : ∀ s e t, I s → step s e = some t → I t) {s : σ} (hs : I s)
    (es : List ε) : AllStates step I s es := by
  induction es generalizing s with
  | nil => exact hs
  | cons e es ih => exact ⟨hs, fun t ht => ih (hstep s e t hs ht)⟩

/-- The transition rule for a run without a guard. -/
theorem allSteps_of_invariant {I : σ → Prop} {R : σ → ε → σ → Prop}
    (hstep : ∀ s e t, I s → step s e = some t → I t ∧ R s e t) {s : σ} (hs : I s)
    (es : List ε) : AllSteps step R s es := by
  induction es generalizing s with
  | nil => trivial
  | cons e es ih =>
    intro t ht
    obtain ⟨hi, hr⟩ := hstep s e t hs ht
    exact ⟨hr, ih hi⟩

/-- **Two relations that agree on the steps from invariant states** agree on
every run from one. -/
theorem allSteps_congr {I : σ → Prop} {R S : σ → ε → σ → Prop}
    (hinv : ∀ s e t, I s → step s e = some t → I t)
    (hrs : ∀ s e t, I s → step s e = some t → (R s e t ↔ S s e t)) {s : σ}
    (hs : I s) (es : List ε) : AllSteps step R s es ↔ AllSteps step S s es := by
  induction es generalizing s with
  | nil => exact Iff.rfl
  | cons e es ih =>
    refine forall_congr' (fun t => forall_congr' (fun ht => ?_))
    exact and_congr (hrs s e t hs ht) (ih (hinv s e t hs ht))

/-- **Exactly the guarded runs.** If a step keeps the property just when its
guard holds, the property holds throughout a run just when every step of it is
guarded. -/
theorem allStates_iff_allSteps {I P : σ → Prop} {G : σ → ε → Prop}
    (hstep : ∀ s e t, I s → P s → step s e = some t → I t ∧ (P t ↔ G s e)) {s : σ} (hs : I s)
    (hp : P s) (es : List ε) :
    AllStates step P s es ↔ AllSteps step (fun s e _ => G s e) s es := by
  induction es generalizing s with
  | nil => exact ⟨fun _ => trivial, fun _ => hp⟩
  | cons e es ih =>
    constructor
    · intro h t ht
      obtain ⟨hit, hiff⟩ := hstep s e t hs hp ht
      have hpt : P t := (h.2 t ht).head
      exact ⟨hiff.1 hpt, (ih hit hpt).1 (h.2 t ht)⟩
    · intro h
      refine ⟨hp, fun t ht => ?_⟩
      obtain ⟨hit, hiff⟩ := hstep s e t hs hp ht
      have hpt : P t := hiff.2 (h t ht).1
      exact (ih hit hpt).2 (h t ht).2

/-- **What a run comes to.** If a guarded step has the property after it just when it had it
before and the step is of the relation, a guarded run has it in the end just when it had it at first
and all its steps are of the relation. -/
theorem run_iff_allSteps {I P : σ → Prop} {G R : σ → ε → σ → Prop}
    (hstep : ∀ s e t, I s → G s e t → step s e = some t → I t ∧ (P t ↔ P s ∧ R s e t)) {s t : σ}
    (hs : I s) {es : List ε} (hg : AllSteps step G s es) (hr : run step s es = some t) :
    I t ∧ (P t ↔ P s ∧ AllSteps step R s es) := by
  induction es generalizing s with
  | nil =>
    rw [run_nil, Option.some.injEq] at hr
    subst hr
    exact ⟨hs, (and_iff_left trivial).symm⟩
  | cons e es ih =>
    rw [run_cons, Option.bind_eq_some_iff] at hr
    obtain ⟨u, hu, hr⟩ := hr
    obtain ⟨hge, hgu⟩ := hg u hu
    obtain ⟨hiu, hpu⟩ := hstep s e u hs hge hu
    obtain ⟨hit, hpt⟩ := ih hiu hgu hr
    refine ⟨hit, ?_⟩
    rw [hpt, hpu, allSteps_cons hu, and_assoc]

end Machine

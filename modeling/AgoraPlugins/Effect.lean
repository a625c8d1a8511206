import Mathlib.Data.List.Basic
import Mathlib.Logic.Relation
import Mathlib.Order.Defs.Unbundled
import Mathlib.Tactic.Common

/-!
# Computations that keep their state when they raise

A coroutine that raises has still done what it did before: the fields it wrote
stay written, the requests it sent stay sent. That is `EStateM ε σ`, core's
monad of a state and an exception in which a handler resumes from the state of
the raise.

This module says how to reason about such computations. `Ensures m s Q` is the
post-condition of one run, with both exits in `Q`; it is computed by a rewrite
at every construct, so a straight-line program is proved by `simp`. What loops
and retries need is coarser. `Respects R m` says that `m` moves the state along
the relation `R`, whichever way it exits. For a preorder that is closed under
everything a program is built of, so a frame condition is proved at the leaves
and holds of the whole.

Retrying is the one construct that is not a term here. `Attempts` says what a
caller may rely on when a computation is handed to a retry helper: the outcome
is that of some attempt, and every attempt before it raised.
-/

variable {ε σ α β : Type}

namespace Effect

/-! ## One run -/

/-- **The post-condition of one run**: `Q` holds of the value or the exception
the run from `s` exits with, and of the state it leaves. -/
def Ensures (m : EStateM ε σ α) (s : σ) (Q : Except ε α → σ → Prop) : Prop :=
  match m s with
  | .ok a t => Q (.ok a) t
  | .error e t => Q (.error e) t

theorem Ensures.mono {m : EStateM ε σ α} {s : σ} {Q Q' : Except ε α → σ → Prop}
    (h : Ensures m s Q) (hq : ∀ r t, Q r t → Q' r t) : Ensures m s Q' := by
  unfold Ensures at *
  cases hm : m s with
  | ok a t => rw [hm] at h; exact hq _ _ h
  | error e t => rw [hm] at h; exact hq _ _ h

theorem Ensures.and {m : EStateM ε σ α} {s : σ} {Q Q' : Except ε α → σ → Prop}
    (h : Ensures m s Q) (h' : Ensures m s Q') :
    Ensures m s (fun r t => Q r t ∧ Q' r t) := by
  unfold Ensures at *
  cases hm : m s with
  | ok a t => rw [hm] at h h'; exact ⟨h, h'⟩
  | error e t => rw [hm] at h h'; exact ⟨h, h'⟩

/-- What a run ensures, read off an outcome that is known. -/
theorem Ensures.of_ok {m : EStateM ε σ α} {s t : σ} {a : α}
    {Q : Except ε α → σ → Prop} (h : Ensures m s Q) (hm : m s = .ok a t) :
    Q (.ok a) t := by
  unfold Ensures at h
  rwa [hm] at h

/-- What holds of an error that is raised. -/
theorem Ensures.of_error {m : EStateM ε σ α} {s t : σ} {e : ε}
    {Q : Except ε α → σ → Prop} (h : Ensures m s Q) (hm : m s = .error e t) :
    Q (.error e) t := by
  unfold Ensures at h
  rwa [hm] at h

/-- The state a run leaves, whichever way it exits. -/
def finalState (m : EStateM ε σ α) (s : σ) : σ :=
  match m s with
  | .ok _ t => t
  | .error _ t => t

/-- Whether a run raises. -/
def raises (m : EStateM ε σ α) (s : σ) : Bool :=
  match m s with
  | .ok _ _ => false
  | .error _ _ => true

/-- **The state after two computations** is that after the first, if it raises. -/
theorem finalState_bind (m : EStateM ε σ α) (f : α → EStateM ε σ β) (s : σ) :
    finalState (m >>= f) s = match m s with
      | .ok a t => finalState (f a) t
      | .error _ t => t := by
  show finalState (EStateM.bind m f) s = _
  unfold finalState EStateM.bind
  cases m s <;> rfl

/-- A post-condition of both exits holds of the state the run leaves. -/
theorem Ensures.finalState {m : EStateM ε σ α} {s : σ} {Q : σ → Prop}
    (h : Ensures m s (fun _ t => Q t)) : Q (finalState m s) := by
  unfold Ensures at h
  unfold Effect.finalState
  cases hm : m s with
  | ok a t => rw [hm] at h; exact h
  | error e t => rw [hm] at h; exact h

/-- A post-condition of the normal exit holds of the state a run leaves that
does not raise. -/
theorem Ensures.finalState_of_raises {m : EStateM ε σ α} {s : σ}
    {Q : Except ε α → σ → Prop} (h : Ensures m s Q) (hm : raises m s = false) :
    ∃ a, Q (.ok a) (Effect.finalState m s) := by
  unfold Ensures at h
  unfold raises at hm
  unfold Effect.finalState
  cases hms : m s with
  | ok a t => rw [hms] at h; exact ⟨a, h⟩
  | error e t => rw [hms] at hm; cases hm

/-- **A run whose outcome is known** ensures what holds of that outcome. -/
theorem ensures_iff_of_ok {m : EStateM ε σ α} {s t : σ} {a : α}
    {Q : Except ε α → σ → Prop} (hm : m s = .ok a t) : Ensures m s Q ↔ Q (.ok a) t := by
  unfold Ensures
  rw [hm]

/-- What raises meets a condition just if that is so of the error. -/
theorem ensures_iff_of_error {m : EStateM ε σ α} {s t : σ} {e : ε}
    {Q : Except ε α → σ → Prop} (hm : m s = .error e t) :
    Ensures m s Q ↔ Q (.error e) t := by
  unfold Ensures
  rw [hm]

instance (m : EStateM ε σ α) (s : σ) (Q : Except ε α → σ → Prop)
    [∀ r t, Decidable (Q r t)] : Decidable (Ensures m s Q) :=
  match hm : m s with
  | .ok a t => decidable_of_iff (Q (.ok a) t) (ensures_iff_of_ok hm).symm
  | .error e t => decidable_of_iff (Q (.error e) t) (ensures_iff_of_error hm).symm

/-- Returning leaves the state as it is. -/
@[simp] theorem ensures_pure (a : α) (s : σ) (Q : Except ε α → σ → Prop) :
    Ensures (pure a : EStateM ε σ α) s Q ↔ Q (.ok a) s := Iff.rfl

@[simp] theorem ensures_throw (e : ε) (s : σ) (Q : Except ε α → σ → Prop) :
    Ensures (throw e : EStateM ε σ α) s Q ↔ Q (.error e) s := Iff.rfl

@[simp] theorem ensures_get (s : σ) (Q : Except ε σ → σ → Prop) :
    Ensures (get : EStateM ε σ σ) s Q ↔ Q (.ok s) s := Iff.rfl

@[simp] theorem ensures_modify (f : σ → σ) (s : σ) (Q : Except ε PUnit → σ → Prop) :
    Ensures (modify f : EStateM ε σ PUnit) s Q ↔ Q (.ok ⟨⟩) (f s) := Iff.rfl

/-- **Sequencing.** What the rest ensures is the post-condition of the first
part; an exception passes the rest by. -/
@[simp] theorem ensures_bind (m : EStateM ε σ α) (f : α → EStateM ε σ β) (s : σ)
    (Q : Except ε β → σ → Prop) :
    Ensures (m >>= f) s Q ↔ Ensures m s (fun r t =>
      match r with
      | .ok a => Ensures (f a) t Q
      | .error e => Q (.error e) t) := by
  show Ensures (EStateM.bind m f) s Q ↔ _
  unfold Ensures EStateM.bind
  cases m s <;> exact Iff.rfl

/-- Sequencing through a post-condition of the first part. -/
theorem Ensures.bind {m : EStateM ε σ α} {f : α → EStateM ε σ β} {s : σ}
    {P : Except ε α → σ → Prop} {Q : Except ε β → σ → Prop} (hm : Ensures m s P)
    (hok : ∀ a t, P (.ok a) t → Ensures (f a) t Q)
    (herror : ∀ e t, P (.error e) t → Q (.error e) t) : Ensures (m >>= f) s Q := by
  rw [ensures_bind]
  refine hm.mono (fun r t h => ?_)
  cases r with
  | ok a => exact hok a t h
  | error e => exact herror e t h

/-- **Handling.** The handler starts from the state of the raise. -/
@[simp] theorem ensures_tryCatch (m : EStateM ε σ α) (h : ε → EStateM ε σ α) (s : σ)
    (Q : Except ε α → σ → Prop) :
    Ensures (tryCatch m h) s Q ↔ Ensures m s (fun r t =>
      match r with
      | .ok a => Q (.ok a) t
      | .error e => Ensures (h e) t Q) := by
  show Ensures (EStateM.tryCatch m h) s Q ↔ _
  unfold Ensures EStateM.tryCatch
  cases m s <;> exact Iff.rfl

/-- A body with a clean-up that runs on both exits, Python's `try … finally`:
an exception of the clean-up replaces that of the body. -/
def ensuring (m : EStateM ε σ α) (cleanUp : EStateM ε σ PUnit) : EStateM ε σ α := do
  let a ← tryCatch m (fun e => do
    cleanUp
    throw e)
  cleanUp
  pure a

/-- **A clean-up** runs in any case, and an error of its own replaces what was. -/
@[simp] theorem ensures_ensuring (m : EStateM ε σ α) (cleanUp : EStateM ε σ PUnit) (s : σ)
    (Q : Except ε α → σ → Prop) :
    Ensures (ensuring m cleanUp) s Q ↔ Ensures m s (fun r t =>
      Ensures cleanUp t (fun r' u =>
        match r' with
        | .ok _ => Q r u
        | .error e => Q (.error e) u)) := by
  unfold ensuring
  rw [ensures_bind, ensures_tryCatch]
  unfold Ensures
  cases m s with
  | ok a t => exact ensures_bind cleanUp (fun _ => pure a) t Q
  | error e t =>
    have h := ensures_bind cleanUp (fun _ => (throw e : EStateM ε σ α)) t
      (fun r u => match r with
        | .ok a => Ensures (do cleanUp; pure a) u Q
        | .error e => Q (.error e) u)
    exact h

/-! ## Equations -/

/-- The second computation runs after the first has returned. -/
theorem bind_of_ok {m : EStateM ε σ α} {s t : σ} {a : α} (h : m s = .ok a t)
    (f : α → EStateM ε σ β) : (m >>= f) s = f a t := by
  show EStateM.bind m f s = _
  unfold EStateM.bind
  rw [h]

theorem bind_of_error {m : EStateM ε σ α} {s t : σ} {e : ε} (h : m s = .error e t)
    (f : α → EStateM ε σ β) : (m >>= f) s = .error e t := by
  show EStateM.bind m f s = _
  unfold EStateM.bind
  rw [h]

theorem tryCatch_of_ok {m : EStateM ε σ α} {s t : σ} {a : α} (h : m s = .ok a t)
    (f : ε → EStateM ε σ α) : (tryCatch m f) s = .ok a t := by
  show EStateM.tryCatch m f s = _
  unfold EStateM.tryCatch
  rw [h]

theorem tryCatch_of_error {m : EStateM ε σ α} {s t : σ} {e : ε} (h : m s = .error e t)
    (f : ε → EStateM ε σ α) : (tryCatch m f) s = f e t := by
  show EStateM.tryCatch m f s = _
  unfold EStateM.tryCatch
  rw [h]
  rfl

theorem finalState_of_ok {m : EStateM ε σ α} {s t : σ} {a : α} (h : m s = .ok a t) :
    finalState m s = t := by
  unfold finalState
  rw [h]

theorem finalState_of_error {m : EStateM ε σ α} {s t : σ} {e : ε} (h : m s = .error e t) :
    finalState m s = t := by
  unfold finalState
  rw [h]

/-! ## A part of the state -/

/-- **A computation on a part of the state**, run in the whole: `view` reads the
part and `update` puts it back. -/
def zoom {τ : Type} (view : τ → σ) (update : τ → σ → τ) (m : EStateM ε σ α) :
    EStateM ε τ α := fun s =>
  match m (view s) with
  | .ok a t => .ok a (update s t)
  | .error e t => .error e (update s t)

/-- A part of the state is seen, and put back. -/
theorem zoom_of_ok {τ : Type} {view : τ → σ} {m : EStateM ε σ α} {s : τ} {t : σ} {a : α}
    (h : m (view s) = .ok a t) (update : τ → σ → τ) :
    zoom view update m s = .ok a (update s t) := by
  unfold zoom
  rw [h]

theorem zoom_of_error {τ : Type} {view : τ → σ} {m : EStateM ε σ α} {s : τ} {t : σ} {e : ε}
    (h : m (view s) = .error e t) (update : τ → σ → τ) :
    zoom view update m s = .error e (update s t) := by
  unfold zoom
  rw [h]

theorem adaptExcept_of_ok {ε' : Type} {m : EStateM ε σ α} {s t : σ} {a : α}
    (h : m s = .ok a t) (f : ε → ε') : EStateM.adaptExcept f m s = .ok a t := by
  unfold EStateM.adaptExcept
  rw [h]

theorem adaptExcept_of_error {ε' : Type} {m : EStateM ε σ α} {s t : σ} {e : ε}
    (h : m s = .error e t) (f : ε → ε') : EStateM.adaptExcept f m s = .error (f e) t := by
  unfold EStateM.adaptExcept
  rw [h]

/-- A condition on the whole state, by one on its part. -/
@[simp] theorem ensures_zoom {τ : Type} (view : τ → σ) (update : τ → σ → τ)
    (m : EStateM ε σ α) (s : τ) (Q : Except ε α → τ → Prop) :
    Ensures (zoom view update m) s Q ↔ Ensures m (view s) (fun r t => Q r (update s t)) := by
  unfold Ensures zoom
  cases m (view s) <;> exact Iff.rfl

/-- What is raised may be seen through a function. -/
@[simp] theorem ensures_adaptExcept {ε' : Type} (f : ε → ε') (m : EStateM ε σ α) (s : σ)
    (Q : Except ε' α → σ → Prop) :
    Ensures (EStateM.adaptExcept f m) s Q ↔
      Ensures m s (fun r t => Q (r.mapError f) t) := by
  unfold Ensures EStateM.adaptExcept
  cases m s <;> exact Iff.rfl

@[simp] theorem raises_adaptExcept {ε' : Type} (f : ε → ε') (m : EStateM ε σ α) (s : σ) :
    raises (EStateM.adaptExcept f m) s = raises m s := by
  unfold raises EStateM.adaptExcept
  cases m s <;> rfl

/-- A run that raises ensures what holds of its exceptions. -/
theorem Ensures.of_raises {m : EStateM ε σ α} {s : σ} {Q Q' : Except ε α → σ → Prop}
    (h : Ensures m s Q) (hm : raises m s = true) (hq : ∀ e t, Q (.error e) t → Q' (.error e) t) :
    Ensures m s Q' := by
  unfold Ensures at *
  unfold raises at hm
  cases hms : m s with
  | ok a t => rw [hms] at hm; cases hm
  | error e t => rw [hms] at h; exact hq e t h

/-- A run that does not raise ensures what holds of its values. -/
theorem Ensures.of_not_raises {m : EStateM ε σ α} {s : σ} {Q Q' : Except ε α → σ → Prop}
    (h : Ensures m s Q) (hm : raises m s = false) (hq : ∀ a t, Q (.ok a) t → Q' (.ok a) t) :
    Ensures m s Q' := by
  unfold Ensures at *
  unfold raises at hm
  cases hms : m s with
  | ok a t => rw [hms] at h; exact hq a t h
  | error e t => rw [hms] at hm; cases hm

/-! ## Every run -/

/-- **A frame.** Whichever way a run of `m` exits, it has moved the state along
`R`. -/
def Respects (R : σ → σ → Prop) (m : EStateM ε σ α) : Prop :=
  ∀ s, Ensures m s (fun _ t => R s t)

variable {R : σ → σ → Prop}

theorem Respects.mono {R' : σ → σ → Prop} {m : EStateM ε σ α} (h : Respects R m)
    (hr : ∀ s t, R s t → R' s t) : Respects R' m :=
  fun s => (h s).mono (fun _ t => hr s t)

theorem respects_modify {f : σ → σ} (h : ∀ s, R s (f s)) :
    Respects R (modify f : EStateM ε σ PUnit) := h

section Preorder

variable [IsPreorder σ R]

/-- What changes nothing respects any preorder. -/
theorem respects_pure (a : α) : Respects R (pure a : EStateM ε σ α) :=
  fun s => refl_of R s

theorem respects_throw (e : ε) : Respects R (throw e : EStateM ε σ α) :=
  fun s => refl_of R s

theorem respects_get : Respects R (get : EStateM ε σ σ) :=
  fun s => refl_of R s

/-- **One computation after the other.** -/
theorem Respects.bind {m : EStateM ε σ α} {f : α → EStateM ε σ β} (hm : Respects R m)
    (hf : ∀ a, Respects R (f a)) : Respects R (m >>= f) := by
  intro s
  refine (hm s).bind (fun a t hst => ?_) (fun _ _ hst => hst)
  exact (hf a t).mono (fun _ u htu => trans_of R hst htu)

theorem Respects.tryCatch {m : EStateM ε σ α} {h : ε → EStateM ε σ α} (hm : Respects R m)
    (hh : ∀ e, Respects R (h e)) : Respects R (tryCatch m h) := by
  intro s
  rw [ensures_tryCatch]
  refine (hm s).mono (fun r t hst => ?_)
  cases r with
  | ok a => exact hst
  | error e => exact (hh e t).mono (fun _ u htu => trans_of R hst htu)

theorem Respects.ensuring {m : EStateM ε σ α} {cleanUp : EStateM ε σ PUnit}
    (hm : Respects R m) (hc : Respects R cleanUp) : Respects R (ensuring m cleanUp) := by
  intro s
  rw [ensures_ensuring]
  refine (hm s).mono (fun r t hst => (hc t).mono (fun r' u htu => ?_))
  cases r' with
  | ok _ => exact trans_of R hst htu
  | error e => exact trans_of R hst htu

/-- A loop over a list respects what its body does to the members. -/
theorem respects_forM_of_mem {f : β → EStateM ε σ PUnit} :
    ∀ {bs : List β}, (∀ b ∈ bs, Respects R (f b)) → Respects R (bs.forM f)
  | [], _ => respects_pure _
  | b :: _, hf => (hf b List.mem_cons_self).bind
      (fun _ => respects_forM_of_mem (fun b' hb' => hf b' (List.mem_cons_of_mem b hb')))

/-- A loop over a list respects what its body does. -/
theorem respects_forM {f : β → EStateM ε σ PUnit} (hf : ∀ b, Respects R (f b))
    (bs : List β) : Respects R (bs.forM f) :=
  respects_forM_of_mem (fun b _ => hf b)

end Preorder

/-- The frame of an invariant: if it holds before, it holds after. -/
def Keeps (I : σ → Prop) (s t : σ) : Prop := I s → I t

instance (I : σ → Prop) : IsPreorder σ (Keeps I) where
  refl _ := id
  trans _ _ _ h h' := h' ∘ h

/-! ## The two exits apart -/

/-- **A frame that depends on the exit**: a run of `m` that returns has moved
the state along `R`, and one that raises along `E`. -/
def Exits (R E : σ → σ → Prop) (m : EStateM ε σ α) : Prop :=
  ∀ s, Ensures m s (fun r t => match r with
    | .ok _ => R s t
    | .error _ => E s t)

theorem Respects.exits {m : EStateM ε σ α} (h : Respects R m) : Exits R R m := by
  intro s
  refine (h s).mono (fun r t hst => ?_)
  cases r with
  | ok _ => exact hst
  | error _ => exact hst

theorem Exits.respects {m : EStateM ε σ α} (h : Exits R R m) : Respects R m := by
  intro s
  refine (h s).mono (fun r t hst => ?_)
  cases r with
  | ok _ => exact hst
  | error _ => exact hst

theorem Exits.mono {R' E E' : σ → σ → Prop} {m : EStateM ε σ α} (h : Exits R E m)
    (hr : ∀ s t, R s t → R' s t) (he : ∀ s t, E s t → E' s t) : Exits R' E' m := by
  intro s
  refine (h s).mono (fun r t hst => ?_)
  cases r with
  | ok _ => exact hr s t hst
  | error _ => exact he s t hst

/-- **Sequencing**, each exit on its own: what the whole returns with is the
two normal exits one after the other, and what it raises with is either the
first exception or the second after a normal exit of the first part. -/
theorem Exits.bind {R' R'' E E' E'' : σ → σ → Prop} {m : EStateM ε σ α}
    {f : α → EStateM ε σ β} (hm : Exits R E m) (hf : ∀ a, Exits R' E' (f a))
    (hR : ∀ s t u, R s t → R' t u → R'' s u) (hE : ∀ s t, E s t → E'' s t)
    (hE' : ∀ s t u, R s t → E' t u → E'' s u) : Exits R'' E'' (m >>= f) := by
  intro s
  refine (hm s).bind (fun a t hst => ?_) (fun e t hst => hE s t hst)
  refine (hf a t).mono (fun r' u htu => ?_)
  cases r' with
  | ok b => exact hR s t u hst htu
  | error e => exact hE' s t u hst htu

/-- **Handling**, each exit on its own: a handler takes the raise on from where
it happened. -/
theorem Exits.tryCatch {R' E E' : σ → σ → Prop} {m : EStateM ε σ α}
    {h : ε → EStateM ε σ α} (hm : Exits R E m) (hh : ∀ e, Exits R' E' (h e))
    (hR : ∀ s t u, E s t → R' t u → R s u) {E'' : σ → σ → Prop}
    (hE : ∀ s t u, E s t → E' t u → E'' s u) : Exits R E'' (tryCatch m h) := by
  intro s
  rw [ensures_tryCatch]
  refine (hm s).mono (fun r t hst => ?_)
  cases r with
  | ok a => exact hst
  | error e =>
    refine (hh e t).mono (fun r' u htu => ?_)
    cases r' with
    | ok a => exact hR s t u hst htu
    | error e' => exact hE s t u hst htu

/-- What a run that returned has done, and what a run that raised has. -/
theorem Exits.of_ok {E : σ → σ → Prop} {m : EStateM ε σ α} (h : Exits R E m) {s t : σ}
    {a : α} (hm : m s = .ok a t) : R s t := (h s).of_ok hm

theorem Exits.of_error {E : σ → σ → Prop} {m : EStateM ε σ α} (h : Exits R E m) {s t : σ}
    {e : ε} (hm : m s = .error e t) : E s t := (h s).of_error hm

/-- **A computation that never returns**, such as a handler that ends in a
raise. -/
def Raises (m : EStateM ε σ α) : Prop :=
  ∀ s, Ensures m s (fun r _ => ∃ e, r = .error e)

theorem raises_throw (e : ε) : Raises (throw e : EStateM ε σ α) :=
  fun _ => ⟨e, rfl⟩

/-- Whatever comes before the raise, a raise is what it ends in. -/
theorem Raises.after (m : EStateM ε σ β) {f : β → EStateM ε σ α} (hf : ∀ b, Raises (f b)) :
    Raises (m >>= f) := by
  intro s
  have htrue : Ensures m s (fun _ _ => True) := by
    unfold Ensures
    cases m s <;> exact trivial
  exact htrue.bind (fun b t _ => hf b t) (fun e _ _ => ⟨e, rfl⟩)

/-! ## Retrying -/

/-- **The outcomes a retried computation may have.** The helper makes an
attempt; if it raises something `transient` the helper may make another from
the state the attempt left, and it may also be interrupted while it waits in
between. It returns what the last attempt did. -/
inductive Attempts (transient : ε → Prop) (interrupt : ε) (m : EStateM ε σ α) :
    σ → EStateM.Result ε σ α → Prop
  | last (s : σ) : Attempts transient interrupt m s (m s)
  | again {s t : σ} {e : ε} {r : EStateM.Result ε σ α} (hm : m s = .error e t)
      (he : transient e) (hr : Attempts transient interrupt m t r) :
      Attempts transient interrupt m s r
  | interrupted {s t : σ} {e : ε} (hm : m s = .error e t) (he : transient e) :
      Attempts transient interrupt m s (.error interrupt t)

variable {transient : ε → Prop} {interrupt : ε}

/-- **A normal return is that of an attempt**, made from a state the failed
ones before it lead to. -/
theorem Attempts.ok [IsPreorder σ R] {m : EStateM ε σ α} (hm : Respects R m) {s t : σ}
    {a : α} (h : Attempts transient interrupt m s (.ok a t)) :
    ∃ u, R s u ∧ m u = .ok a t := by
  generalize hr : EStateM.Result.ok a t = r at h ⊢
  induction h with
  | last s => exact ⟨s, refl_of R s, rfl⟩
  | @again s v e r hms he _ ih =>
    obtain ⟨u, hvu, hu⟩ := ih hr
    exact ⟨u, trans_of R ((hm s).of_error hms) hvu, hu⟩
  | interrupted => cases hr

/-- **Retrying respects what an attempt does.** -/
theorem Attempts.respects [IsPreorder σ R] {m m' : EStateM ε σ α} (hm : Respects R m)
    (h : ∀ s, Attempts transient interrupt m s (m' s)) : Respects R m' := by
  have key : ∀ (s : σ) (r : EStateM.Result ε σ α), Attempts transient interrupt m s r →
      match r with
      | .ok _ t => R s t
      | .error _ t => R s t := by
    intro s r hr
    induction hr with
    | last s => exact hm s
    | @again s v e r hms he _ ih =>
      have hsv : R s v := (hm s).of_error hms
      cases r with
      | ok a t => exact trans_of R hsv ih
      | error e t => exact trans_of R hsv ih
    | @interrupted s v e hms he => exact (hm s).of_error hms
  intro s
  have hs := key s (m' s) (h s)
  unfold Ensures
  cases hms : m' s with
  | ok a t => rw [hms] at hs; exact hs
  | error e t => rw [hms] at hs; exact hs

/-- **A retried computation returns along `R`** if an attempt does, and the
failed attempts before it only move along the frame `F`. -/
theorem Attempts.exits {F : σ → σ → Prop} [IsPreorder σ F] {m m' : EStateM ε σ α}
    (hm : Exits R F m) (hF : Respects F m)
    (hR : ∀ s t u, F s t → R t u → R s u)
    (h : ∀ s, Attempts transient interrupt m s (m' s)) : Exits R F m' := by
  intro s
  have hs := h s
  have hf := Attempts.respects hF h s
  unfold Ensures at hf ⊢
  cases hms : m' s with
  | ok a t =>
    rw [hms] at hs
    obtain ⟨u, hsu, hu⟩ := hs.ok hF
    exact hR s u t hsu (hm.of_ok hu)
  | error e t =>
    rw [hms] at hf
    exact hf

/-- **The retry rule.** An attempt from a state with the invariant exits with `Q`; where it
raises something transient it leaves a state with the invariant, from which the helper may
also be interrupted. So the whole exits with `Q`. -/
theorem Attempts.ensures {I : σ → Prop} {Q : Except ε α → σ → Prop} {m m' : EStateM ε σ α}
    (hm : ∀ s, I s → Ensures m s (fun r t => Q r t
      ∧ ∀ e, r = .error e → transient e → I t ∧ Q (.error interrupt) t))
    (h : ∀ s, Attempts transient interrupt m s (m' s)) {s : σ} (hs : I s) :
    Ensures m' s Q := by
  have key : ∀ (s : σ) (r : EStateM.Result ε σ α), Attempts transient interrupt m s r → I s →
      match r with
      | .ok a t => Q (.ok a) t
      | .error e t => Q (.error e) t := by
    intro s r hr
    induction hr with
    | last s =>
      intro hs
      exact (hm s hs).mono (fun _ _ hq => hq.1)
    | again hms he _ ih =>
      intro hs
      exact ih (((hm _ hs).of_error hms).2 _ rfl he).1
    | interrupted hms he =>
      intro hs
      exact (((hm _ hs).of_error hms).2 _ rfl he).2
  have hkey := key s (m' s) (h s) hs
  unfold Ensures
  cases hms : m' s with
  | ok a t => rw [hms] at hkey; exact hkey
  | error e t => rw [hms] at hkey; exact hkey

/-- What returns at the first attempt is not attempted again. -/
theorem Attempts.eq_of_ok {m : EStateM ε σ α} {s t : σ} {a : α} {r : EStateM.Result ε σ α}
    (h : Attempts transient interrupt m s r) (hm : m s = .ok a t) : r = .ok a t := by
  cases h with
  | last => exact hm
  | again hms _ _ =>
    rw [hm] at hms
    cases hms
  | interrupted hms _ =>
    rw [hm] at hms
    cases hms

/-- **A retry helper**: whatever it is handed is attempted, and what it does is
the outcome of attempts. -/
structure Retry {ε : Type} (σ : Type) (transient : ε → Prop) (interrupt : ε) where
  run : {β : Type} → EStateM ε σ β → EStateM ε σ β
  attempts : ∀ {β : Type} (m : EStateM ε σ β) (s : σ),
    Attempts transient interrupt m s (run m s)

/-- **A helper that is not interrupted** while it waits: what it does is what an attempt does,
made after failed ones. -/
def Retry.Uninterrupted (retry : Retry σ transient interrupt) : Prop :=
  ∀ {β : Type} (m : EStateM ε σ β) (s : σ),
    ∃ t, Relation.ReflTransGen (fun s t => ∃ e, m s = .error e t ∧ transient e) s t
      ∧ retry.run m s = m t

/-- **An attempt that returns** is the last one. -/
theorem Retry.run_of_ok (retry : Retry σ transient interrupt) {m : EStateM ε σ β} {s t : σ}
    {b : β} (h : m s = .ok b t) : retry.run m s = .ok b t :=
  (retry.attempts m s).eq_of_ok h

/-- **What fails and changes nothing** fails in the end as it did at first. -/
theorem Retry.Uninterrupted.run_of_error {retry : Retry σ transient interrupt}
    (hretry : retry.Uninterrupted) {m : EStateM ε σ β} {s : σ} {e : ε} (h : m s = .error e s) :
    retry.run m s = .error e s := by
  obtain ⟨t, hst, hrun⟩ := hretry m s
  have hsame : t = s := by
    clear hrun
    induction hst with
    | refl => rfl
    | tail _ hstep ih =>
      obtain ⟨e', he', _⟩ := hstep
      rw [ih, h] at he'
      cases he'
      rfl
  rw [hrun, hsame, h]

/-- Attempting at most `n + 1` times, without a pause: the plainest retry
helper. -/
def upTo (transient : ε → Bool) (m : EStateM ε σ α) : ℕ → EStateM ε σ α
  | 0 => m
  | n + 1 => tryCatch m (fun e => if transient e then upTo transient m n else throw e)

/-- **Up to so many attempts**, by induction on how many are left. -/
theorem upTo_attempts (transient : ε → Bool) (interrupt : ε) (m : EStateM ε σ α) :
    ∀ (n : ℕ) (s : σ),
      Attempts (fun e => transient e = true) interrupt m s (upTo transient m n s)
  | 0, s => .last s
  | n + 1, s => by
    have hdef : upTo transient m (n + 1) s = match m s with
        | .ok a t => .ok a t
        | .error e t => if transient e then upTo transient m n t else .error e t := by
      show EStateM.tryCatch m _ s = _
      unfold EStateM.tryCatch
      cases m s with
      | ok a t => rfl
      | error e t => cases h : transient e <;> simp [h] <;> rfl
    have hlast : Attempts (fun e => transient e = true) interrupt m s (m s) := .last s
    cases hm : m s with
    | ok a t =>
      rw [hdef, hm]
      rwa [hm] at hlast
    | error e t =>
      have hstep : upTo transient m (n + 1) s
          = if transient e then upTo transient m n t else .error e t := by
        rw [hdef, hm]
      rw [hstep]
      cases he : transient e with
      | true =>
        rw [if_pos rfl]
        exact .again hm he (upTo_attempts transient interrupt m n t)
      | false =>
        rw [if_neg Bool.false_ne_true]
        rwa [hm] at hlast

end Effect

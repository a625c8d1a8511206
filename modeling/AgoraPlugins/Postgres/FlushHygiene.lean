import AgoraPlugins.Postgres.ConnectionHygiene
import AgoraPlugins.Postgres.FlushTransactions

/-!
# Rows that are inserted once

A flush takes the rows that it finds in the buffer and has them written batch by batch, each batch
in a call that may be repeated. When it returns, and when it raises, the rows of the calls that have
returned are taken out of the buffer. Nothing else tells what has been inserted: a call whose commit
the server has done, and which is then cancelled or raises, leaves its rows in the buffer, and so
does a cancelled flush with the rows of all its calls, those that have returned too. The next flush
inserts them again.

Where neither happens, nobody's statements are left on a connection, and flushes come one after the
other, no row is inserted by two flushes (`allStates_hygienic`).
-/

open Machine
open FlushConfig (remaining)

namespace FlushHygiene

/-- **What is written by which call**: the flush that it is made for, and the positions of its rows
among those that the flush has found. -/
structure Plan (ι φ : Type) where
  flush : ι → φ
  rowIndexes : ι → Finset ℕ

/-- **A sink's buffer and its flushes**, over its connections and calls. A row is the number under
which it was put into the buffer. -/
structure State (ι φ : Type) where
  conns : ConnectionHygiene.State ι := {}
  buffer : List ℕ := []
  enqueued : ℕ := 0
  /-- the rows that a flush has found -/
  rows : φ → Option (List ℕ) := fun _ => none
  underWay : List φ := []
  /-- the last call that a flush has made -/
  last : φ → Option ι := fun _ => none
  /-- the calls that have returned -/
  returned : List ι := []

/-- **What can happen** to the sink and to its flushes, or to the connection. -/
inductive Event (ι φ : Type) where
  | call (e : ConnectionHygiene.Event ι)
  | enqueued
  | began (f : φ)
  /-- the flush returns or raises -/
  | ended (f : φ)
  | cancelled (f : φ)

variable {ι φ : Type} [DecidableEq ι] [DecidableEq φ]

/-- The rows at some positions. -/
def taken {γ : Type} (indexes : Finset ℕ) (rows : List γ) : List γ :=
  (rows.zipIdx.filter (fun row => row.2 ∈ indexes)).map Prod.fst

variable (plan : Plan ι φ)

namespace State

variable (s : State ι φ)

/-- No call of a flush is under way. -/
def AtRest (f : φ) : Prop := ∀ i ∈ s.last f, s.conns.pool.pc i = .ended

instance (f : φ) : Decidable (s.AtRest f) :=
  inferInstanceAs (Decidable (∀ i ∈ s.last f, s.conns.pool.pc i = .ended))

/-- **The calls of a flush come one after the other.** -/
def InTurn (e : ConnectionHygiene.Event ι) : Prop :=
  if e.begins then s.AtRest (plan.flush e.call) else s.last (plan.flush e.call) = some e.call

instance (e : ConnectionHygiene.Event ι) : Decidable (s.InTurn plan e) :=
  inferInstanceAs (Decidable
    (if e.begins then s.AtRest (plan.flush e.call) else s.last (plan.flush e.call) = some e.call))

/-- The rows of a call. -/
def rowsOf (i : ι) : List ℕ := taken (plan.rowIndexes i) ((s.rows (plan.flush i)).getD [])

/-- `flushed_indexes`. -/
def flushedIndexes (f : φ) : Finset ℕ :=
  (s.returned.toFinset.filter (fun i => plan.flush i = f)).biUnion plan.rowIndexes

end State

/-- **One event.** A flush that returns leaves what `flushed_indexes` leaves, since all its calls
have returned. That a cancelled call is the last one of its flush is not asked for. -/
def step (cfg : Option WritePool.Config) (s : State ι φ) : Event ι φ → Option (State ι φ)
  | .call e =>
    if plan.flush e.call ∈ s.underWay ∧ s.InTurn plan e then
      (ConnectionHygiene.step cfg s.conns e).map (fun conns => { s with
        conns
        last := Function.update s.last (plan.flush e.call) (some e.call)
        returned := s.returned ++ e.returns })
    else none
  | .enqueued => some { s with buffer := s.buffer ++ [s.enqueued], enqueued := s.enqueued + 1 }
  | .began f =>
    if s.rows f = none then
      some { s with
        rows := Function.update s.rows f (some s.buffer)
        underWay := f :: s.underWay }
    else none
  | .ended f =>
    if f ∈ s.underWay ∧ s.AtRest f then
      some { s with
        buffer := remaining (s.flushedIndexes plan f) s.buffer
        underWay := s.underWay.erase f }
    else none
  | .cancelled f =>
    if f ∈ s.underWay ∧ s.AtRest f then some { s with underWay := s.underWay.erase f } else none

/-! ## Hygiene -/

/-- A commit has inserted the rows of a call. -/
def State.Inserted (s : State ι φ) (i : ι) : Prop := ∃ commit ∈ s.conns.commits, i ∈ commit.2

/-- **No row is inserted by two flushes.** -/
def InsertedOnce (s : State ι φ) : Prop :=
  ∀ i j, s.Inserted i → s.Inserted j → ∀ row ∈ s.rowsOf plan i, row ∈ s.rowsOf plan j →
    plan.flush i = plan.flush j

/-- **No call leaves statements behind** (`ConnectionHygiene.Tidy`). -/
def Tidy (cfg : Option WritePool.Config) (s : State ι φ) : Event ι φ → Prop
  | .call e => ConnectionHygiene.Tidy cfg s.conns e
  | _ => True

/-- **What has been inserted is known to be**: no call is cancelled or raises after the server has
done its commit, no flush is cancelled after one of its calls has returned; and flushes come one
after the other. -/
def Known (s : State ι φ) : Event ι φ → Prop
  | .call (.raised i) | .call (.interrupted i) => ¬ s.Inserted i
  | .cancelled f => ∀ i ∈ s.returned, plan.flush i ≠ f
  | .began _ => s.underWay = []
  | _ => True

instance [Fintype ι] (cfg : Option WritePool.Config) (s : State ι φ) :
    (e : Event ι φ) → Decidable (Tidy cfg s e)
  | .call e => inferInstanceAs (Decidable (ConnectionHygiene.Tidy cfg s.conns e))
  | .enqueued | .began _ | .ended _ | .cancelled _ => .isTrue trivial

instance (s : State ι φ) (i : ι) : Decidable (s.Inserted i) :=
  inferInstanceAs (Decidable (∃ commit ∈ s.conns.commits, i ∈ commit.2))

instance (s : State ι φ) : (e : Event ι φ) → Decidable (Known plan s e)
  | .call (.raised i) | .call (.interrupted i) => inferInstanceAs (Decidable (¬ s.Inserted i))
  | .cancelled f => inferInstanceAs (Decidable (∀ i ∈ s.returned, plan.flush i ≠ f))
  | .began _ => inferInstanceAs (Decidable (s.underWay = []))
  | .call (.pool _) | .call (.executed _) | .call (.aborted _) | .call (.rolledBack _)
  | .call (.committed _) | .call (.finished _) | .enqueued | .ended _ => .isTrue trivial

/-! ## Rows at positions -/

section Rows

variable {γ : Type} {row : γ} {rows buffer : List γ} {indexes : Finset ℕ}

theorem mem_taken_iff : row ∈ taken indexes rows ↔ ∃ k ∈ indexes, rows[k]? = some row := by
  unfold taken
  constructor
  · intro h
    obtain ⟨⟨r, k⟩, hmem, rfl⟩ := List.mem_map.1 h
    obtain ⟨hzip, hk⟩ := List.mem_filter.1 hmem
    exact ⟨k, of_decide_eq_true hk, List.mem_zipIdx_iff_getElem?.1 hzip⟩
  · rintro ⟨k, hk, hrow⟩
    exact List.mem_map.2 ⟨(row, k),
      List.mem_filter.2 ⟨List.mem_zipIdx_iff_getElem?.2 hrow, decide_eq_true hk⟩, rfl⟩

theorem remaining_sublist : (remaining indexes rows).Sublist rows := by
  have hsublist := (List.filter_sublist (p := fun row : γ × ℕ => row.2 ∉ indexes)
    (l := rows.zipIdx)).map Prod.fst
  rwa [List.zipIdx_map_fst] at hsublist

theorem subset_of_taken (h : row ∈ taken indexes rows) : row ∈ rows := by
  obtain ⟨k, _, hrow⟩ := mem_taken_iff.1 h
  exact List.mem_of_getElem? hrow

/-- **What is taken is not left**, of a buffer that begins with the rows that were found. -/
theorem not_mem_remaining_of_taken {indexes' : Finset ℕ} (hsub : indexes ⊆ indexes')
    (hpre : rows <+: buffer) (hnodup : buffer.Nodup) (h : row ∈ taken indexes rows) :
    row ∉ remaining indexes' buffer := by
  intro hleft
  obtain ⟨k, hk, hrow⟩ := mem_taken_iff.1 h
  obtain ⟨⟨r, l⟩, hmem, rfl⟩ := List.mem_map.1 hleft
  obtain ⟨hzip, hl⟩ := List.mem_filter.1 hmem
  have hbuffer : buffer[l]? = some r := List.mem_zipIdx_iff_getElem?.1 hzip
  have hfound : buffer[k]? = some r := by
    obtain ⟨rest, rfl⟩ := hpre
    rw [List.getElem?_append_left (List.getElem?_eq_some_iff.1 hrow).1]
    exact hrow
  obtain ⟨hlt, _⟩ := List.getElem?_eq_some_iff.1 hfound
  have hsame : k = l := (List.getElem?_inj hlt hnodup).1 (hfound.trans hbuffer.symm)
  rw [← hsame] at hl
  exact of_decide_eq_true hl (hsub hk)

end Rows

/-! ## The invariant -/

section Inv

variable {ι φ : Type}

/-- **What is known in a run** whose steps are tidy and known: a flush that is under way has found
the first rows of the buffer, a call whose rows are inserted has its connection or has returned,
and what a flush that is over has inserted is not in the buffer. -/
structure Inv (plan : Plan ι φ) (cfg : Option WritePool.Config) (s : State ι φ) : Prop where
  conns : ConnectionHygiene.Inv cfg s.conns
  queued : WritePool.Queued s.conns.pool
  calls : ∀ i, s.conns.pool.pc i ≠ .idle → s.conns.pool.pc i ≠ .ended →
    plan.flush i ∈ s.underWay ∧ s.last (plan.flush i) = some i
  inserted : ∀ i, s.Inserted i → i ∈ s.returned ∨ ∃ conn, s.conns.pool.pc i = .holding conn
  begun : ∀ i, s.Inserted i → s.rows (plan.flush i) ≠ none
  alone : ∀ f ∈ s.underWay, s.underWay = [f]
  found : ∀ f ∈ s.underWay, ∃ rows, s.rows f = some rows ∧ rows <+: s.buffer
  increasing : s.buffer.Pairwise (· < ·)
  fresh : ∀ row ∈ s.buffer, row < s.enqueued
  foundFresh : ∀ f rows, s.rows f = some rows → ∀ row ∈ rows, row < s.enqueued
  left : ∀ i, s.Inserted i → plan.flush i ∉ s.underWay → ∀ row ∈ s.rowsOf plan i, row ∉ s.buffer
  once : InsertedOnce plan s

variable {plan : Plan ι φ} {cfg : Option WritePool.Config} {s t : State ι φ}

theorem Inv.rowsOf_lt (h : Inv plan cfg s) {i : ι} {row : ℕ} (hrow : row ∈ s.rowsOf plan i) :
    row < s.enqueued := by
  unfold State.rowsOf at hrow
  cases hrows : s.rows (plan.flush i) with
  | none =>
    rw [hrows] at hrow
    cases subset_of_taken hrow
  | some rows =>
    rw [hrows] at hrow
    exact h.foundFresh _ rows hrows row (subset_of_taken hrow)

/-- The rows of a call of a flush that is under way are in the buffer. -/
theorem Inv.rowsOf_subset (h : Inv plan cfg s) {i : ι} (hi : plan.flush i ∈ s.underWay) {row : ℕ}
    (hrow : row ∈ s.rowsOf plan i) : row ∈ s.buffer := by
  obtain ⟨rows, hrows, hpre⟩ := h.found _ hi
  unfold State.rowsOf at hrow
  rw [hrows] at hrow
  exact hpre.subset (subset_of_taken hrow)

/-- A flush whose calls are at rest has had its insertions returned. -/
theorem Inv.returned_of_atRest (h : Inv plan cfg s) {f : φ} (hrest : s.AtRest f) {i : ι}
    (hi : plan.flush i = f) (hinserted : s.Inserted i) : i ∈ s.returned := by
  refine (h.inserted i hinserted).resolve_right ?_
  rintro ⟨conn, hholding⟩
  obtain ⟨_, hlast⟩ := h.calls i (by rw [hholding]; nofun) (by rw [hholding]; nofun)
  have hended := hrest i (hi ▸ hlast)
  rw [hholding] at hended
  cases hended

theorem inv_init (plan : Plan ι φ) (cfg : Option WritePool.Config) : Inv plan cfg {} where
  conns := ConnectionHygiene.inv_init cfg
  queued := ⟨List.nodup_nil, fun _ => iff_of_false List.not_mem_nil nofun⟩
  calls _ hidle _ := absurd rfl hidle
  inserted := by rintro i ⟨_, hcommit, _⟩; cases hcommit
  begun := by rintro i ⟨_, hcommit, _⟩; cases hcommit
  alone := nofun
  found := nofun
  increasing := List.Pairwise.nil
  fresh := nofun
  foundFresh := nofun
  left := by rintro i ⟨_, hcommit, _⟩; cases hcommit
  once := by rintro i j ⟨_, hcommit, _⟩; cases hcommit

/-! ## The invariant over a step -/

theorem inv_enqueued (h : Inv plan cfg s) :
    Inv plan cfg { s with buffer := s.buffer ++ [s.enqueued], enqueued := s.enqueued + 1 } where
  conns := h.conns
  queued := h.queued
  calls := h.calls
  inserted := h.inserted
  begun := h.begun
  alone := h.alone
  found f hf := by
    obtain ⟨rows, hrows, hpre⟩ := h.found f hf
    exact ⟨rows, hrows, hpre.trans (List.prefix_append _ _)⟩
  increasing := by
    refine List.pairwise_append.2 ⟨h.increasing, List.pairwise_singleton _ _, ?_⟩
    intro row hrow last hlast
    rw [List.mem_singleton.1 hlast]
    exact h.fresh row hrow
  fresh row hrow := by
    rcases List.mem_append.1 hrow with hrow | hrow
    · exact Nat.lt_succ_of_lt (h.fresh row hrow)
    · rw [List.mem_singleton.1 hrow]
      exact Nat.lt_succ_self _
  foundFresh f rows hrows row hrow := Nat.lt_succ_of_lt (h.foundFresh f rows hrows row hrow)
  left i hi hover row hrow hmem := by
    rcases List.mem_append.1 hmem with hmem | hmem
    · exact h.left i hi hover row hrow hmem
    · rw [List.mem_singleton.1 hmem] at hrow
      exact Nat.lt_irrefl _ (h.rowsOf_lt hrow)
  once := h.once

variable [DecidableEq φ]

theorem inv_began (h : Inv plan cfg s) {f : φ} (hnew : s.rows f = none) (hfree : s.underWay = []) :
    Inv plan cfg { s with
      rows := Function.update s.rows f (some s.buffer), underWay := f :: s.underWay } := by
  have hother : ∀ i, s.Inserted i → plan.flush i ≠ f := by
    rintro i hi rfl
    exact h.begun i hi hnew
  have hrows : ∀ i, s.Inserted i → State.rowsOf plan
      { s with rows := Function.update s.rows f (some s.buffer), underWay := f :: s.underWay } i
        = s.rowsOf plan i := by
    intro i hi
    unfold State.rowsOf
    dsimp only
    rw [Function.update_of_ne (hother i hi)]
  refine
    { conns := h.conns
      queued := h.queued
      calls := fun i hidle hended => ?_
      inserted := h.inserted
      begun := fun i hi => ?_
      alone := fun g hg => ?_
      found := fun g hg => ?_
      increasing := h.increasing
      fresh := h.fresh
      foundFresh := fun g rows hg => ?_
      left := fun i hi hover => ?_
      once := fun i j hi hj => ?_ }
  · have hcall := h.calls i hidle hended
    rw [hfree] at hcall
    cases hcall.1
  · dsimp only
    rw [Function.update_of_ne (hother i hi)]
    exact h.begun i hi
  · dsimp only at hg ⊢
    rw [hfree, List.mem_singleton] at hg
    rw [hfree, hg]
  · dsimp only at hg ⊢
    rw [hfree, List.mem_singleton] at hg
    exact ⟨s.buffer, by rw [hg, Function.update_self], List.prefix_refl _⟩
  · dsimp only at hg
    by_cases hgf : g = f
    · rw [hgf, Function.update_self, Option.some.injEq] at hg
      exact hg ▸ h.fresh
    · rw [Function.update_of_ne hgf] at hg
      exact h.foundFresh g rows hg
  · rw [hrows i hi]
    exact h.left i hi (fun hmem => hover (List.mem_cons_of_mem _ hmem))
  · rw [hrows i hi, hrows j hj]
    exact h.once i j hi hj

/-- **A flush is over**, and what it has inserted is out of the buffer. -/
theorem inv_over (h : Inv plan cfg s) {f : φ} (hf : f ∈ s.underWay) (hrest : s.AtRest f)
    {buffer : List ℕ} (hsublist : buffer.Sublist s.buffer)
    (hleft : ∀ i, s.Inserted i → plan.flush i = f → ∀ row ∈ s.rowsOf plan i, row ∉ buffer) :
    Inv plan cfg { s with buffer, underWay := s.underWay.erase f } := by
  have halone := h.alone f hf
  have hnone : s.underWay.erase f = [] := by
    rw [halone, List.erase_cons_head]
  refine
    { conns := h.conns
      queued := h.queued
      calls := fun i hidle hended => ?_
      inserted := h.inserted
      begun := h.begun
      alone := fun g hg => ?_
      found := fun g hg => ?_
      increasing := h.increasing.sublist hsublist
      fresh := fun row hrow => h.fresh row (hsublist.subset hrow)
      foundFresh := h.foundFresh
      left := fun i hi _ row hrow hmem => ?_
      once := h.once }
  · obtain ⟨hflush, hlast⟩ := h.calls i hidle hended
    rw [halone, List.mem_singleton] at hflush
    exact absurd (hrest i (hflush ▸ hlast)) hended
  · dsimp only at hg
    rw [hnone] at hg
    cases hg
  · dsimp only at hg
    rw [hnone] at hg
    cases hg
  · by_cases hflush : plan.flush i = f
    · exact hleft i hi hflush row hrow hmem
    · refine h.left i hi ?_ row hrow (hsublist.subset hmem)
      rw [halone, List.mem_singleton]
      exact hflush

variable [DecidableEq ι]

theorem inv_ended (h : Inv plan cfg s) {f : φ} (hf : f ∈ s.underWay) (hrest : s.AtRest f) :
    Inv plan cfg { s with
      buffer := remaining (s.flushedIndexes plan f) s.buffer, underWay := s.underWay.erase f } := by
  refine inv_over h hf hrest remaining_sublist (fun i hi hflush row hrow => ?_)
  obtain ⟨rows, hrows, hpre⟩ := h.found f hf
  have hreturned := h.returned_of_atRest hrest hflush hi
  have hsub : plan.rowIndexes i ⊆ s.flushedIndexes plan f :=
    Finset.subset_biUnion_of_mem plan.rowIndexes
      (Finset.mem_filter.2 ⟨List.mem_toFinset.2 hreturned, hflush⟩)
  unfold State.rowsOf at hrow
  rw [hflush, hrows] at hrow
  exact not_mem_remaining_of_taken hsub hpre (h.increasing.imp Nat.ne_of_lt) hrow

omit [DecidableEq φ] in
/-- What a call has inserted after a step: what it had, or its own transaction. -/
theorem inserted_of_step (h : Inv plan cfg s) {e : ConnectionHygiene.Event ι}
    {conns : ConnectionHygiene.State ι} (hstep : ConnectionHygiene.step cfg s.conns e = some conns)
    {i : ι} (hi : ∃ commit ∈ conns.commits, i ∈ commit.2) :
    s.Inserted i ∨ i = e.call ∧ ∃ conn, conns.pool.pc i = .holding conn := by
  obtain ⟨commit, hcommit, hmem⟩ := hi
  rcases ConnectionHygiene.commits_step hstep with hsame | ⟨conn, hheld, hpool, hcommits⟩
  · exact .inl ⟨commit, hsame ▸ hcommit, hmem⟩
  · rw [hcommits] at hcommit
    rcases List.mem_append.1 hcommit with hcommit | hcommit
    · exact .inl ⟨commit, hcommit, hmem⟩
    · rw [List.mem_singleton.1 hcommit] at hmem
      have hholding := ConnectionHygiene.held_eq_some_iff.1 hheld
      obtain rfl := h.conns.own e.call conn hholding i hmem
      exact .inr ⟨rfl, conn, hpool ▸ hholding⟩

/-- **A step of a call.** -/
theorem inv_call (h : Inv plan cfg s) {e : ConnectionHygiene.Event ι}
    (hflush : plan.flush e.call ∈ s.underWay) (hturn : s.InTurn plan e)
    (htidy : ConnectionHygiene.Tidy cfg s.conns e) (hknown : Known plan s (.call e))
    {conns : ConnectionHygiene.State ι}
    (hstep : ConnectionHygiene.step cfg s.conns e = some conns) :
    Inv plan cfg { s with
      conns
      last := Function.update s.last (plan.flush e.call) (some e.call)
      returned := s.returned ++ e.returns } := by
  -- other calls stay where they are, if they do not wait
  have haside := ConnectionHygiene.aside_step h.queued hstep
  have hnew : ∀ i, (∃ commit ∈ conns.commits, i ∈ commit.2) →
      s.Inserted i ∨ i = e.call ∧ ∃ conn, conns.pool.pc i = .holding conn :=
    fun i hi => inserted_of_step h hstep hi
  refine
    { conns := ConnectionHygiene.inv_step h.conns htidy hstep
      queued := haside.queued
      calls := fun i hidle hended => ?_
      inserted := fun i hi => ?_
      begun := fun i hi => ?_
      alone := h.alone
      found := h.found
      increasing := h.increasing
      fresh := h.fresh
      foundFresh := h.foundFresh
      left := fun i hi hover => ?_
      once := fun i j hi hj row hrowi hrowj => ?_ }
  · by_cases hi : i = e.call
    · subst hi
      exact ⟨hflush, Function.update_self _ _ _⟩
    · -- another call was under way before
      have hbefore : s.conns.pool.pc i ≠ .idle ∧ s.conns.pool.pc i ≠ .ended := by
        by_cases hwaiting : s.conns.pool.pc i = .waiting
        · rw [hwaiting]
          exact ⟨nofun, nofun⟩
        · rw [← haside.others i hi hwaiting]
          exact ⟨hidle, hended⟩
      obtain ⟨hunderWay, hlast⟩ := h.calls i hbefore.1 hbefore.2
      refine ⟨hunderWay, ?_⟩
      have hne : plan.flush i ≠ plan.flush e.call := by
        intro heq
        unfold State.InTurn at hturn
        split at hturn
        · exact hbefore.2 (hturn i (heq ▸ hlast))
        · rw [← heq, hlast, Option.some.injEq] at hturn
          exact hi hturn
      dsimp only
      rwa [Function.update_of_ne hne]
  · rcases hnew i hi with hi | ⟨_, hholding⟩
    · rcases h.inserted i hi with hreturned | ⟨conn, hholding⟩
      · exact .inl (List.mem_append_left _ hreturned)
      · by_cases hcall : i = e.call
        · subst hcall
          rcases ConnectionHygiene.leaves_of_holding hstep hholding with
            hholding | hleaves | hleaves | hleaves
          · exact .inr ⟨conn, hholding⟩
          · rw [hleaves]
            exact .inl (List.mem_append_right _ List.mem_cons_self)
          · rw [hleaves] at hknown
            exact absurd hi hknown
          · rw [hleaves] at hknown
            exact absurd hi hknown
        · refine .inr ⟨conn, ?_⟩
          dsimp only
          rw [haside.others i hcall (by rw [hholding]; nofun)]
          exact hholding
    · exact .inr hholding
  · rcases hnew i hi with hi | ⟨rfl, _⟩
    · exact h.begun i hi
    · obtain ⟨rows, hrows, _⟩ := h.found _ hflush
      dsimp only
      rw [hrows]
      nofun
  · rcases hnew i hi with hi | ⟨rfl, _⟩
    · exact h.left i hi hover
    · exact absurd hflush hover
  · -- what is inserted now is still in the buffer, and what other flushes have inserted is not
    have hapart : ∀ k, s.Inserted k → row ∈ s.rowsOf plan k → row ∈ s.rowsOf plan e.call →
        plan.flush k = plan.flush e.call := by
      intro k hk hrowk hrow
      by_contra hne
      refine h.left k hk ?_ row hrowk (h.rowsOf_subset hflush hrow)
      rw [h.alone _ hflush, List.mem_singleton]
      exact hne
    rcases hnew i hi with hi | ⟨rfl, _⟩ <;> rcases hnew j hj with hj | ⟨rfl, _⟩
    · exact h.once i j hi hj row hrowi hrowj
    · exact hapart i hi hrowi hrowj
    · exact (hapart j hj hrowj hrowi).symm
    · rfl

/-- **One event.** -/
theorem inv_step {e : Event ι φ} (h : Inv plan cfg s) (htidy : Tidy cfg s e)
    (hknown : Known plan s e) (hstep : step plan cfg s e = some t) : Inv plan cfg t := by
  cases e with
  | call e =>
    rw [step, Option.ite_none_right_eq_some] at hstep
    obtain ⟨⟨hflush, hturn⟩, hstep⟩ := hstep
    obtain ⟨conns, hconns, rfl⟩ := Option.map_eq_some_iff.1 hstep
    exact inv_call h hflush hturn htidy hknown hconns
  | enqueued =>
    cases hstep
    exact inv_enqueued h
  | began f =>
    rw [step, Option.ite_none_right_eq_some] at hstep
    obtain ⟨hnew, hstep⟩ := hstep
    cases hstep
    exact inv_began h hnew hknown
  | ended f =>
    rw [step, Option.ite_none_right_eq_some] at hstep
    obtain ⟨⟨hf, hrest⟩, hstep⟩ := hstep
    cases hstep
    exact inv_ended h hf hrest
  | cancelled f =>
    rw [step, Option.ite_none_right_eq_some] at hstep
    obtain ⟨⟨hf, hrest⟩, hstep⟩ := hstep
    cases hstep
    refine inv_over h hf hrest (List.Sublist.refl _) (fun i hi hflush => ?_)
    exact absurd hflush (hknown i (h.returned_of_atRest hrest hflush hi))

/-- The connections make steps of their own, or none. -/
theorem conns_step {e : Event ι φ} (htidy : Tidy cfg s e) (hstep : step plan cfg s e = some t)
    (h : ConnectionHygiene.Inv cfg s.conns) : ConnectionHygiene.Inv cfg t.conns := by
  cases e with
  | call e =>
    rw [step, Option.ite_none_right_eq_some] at hstep
    obtain ⟨_, hstep⟩ := hstep
    obtain ⟨conns, hconns, rfl⟩ := Option.map_eq_some_iff.1 hstep
    exact ConnectionHygiene.inv_step h htidy hconns
  | enqueued =>
    cases hstep
    exact h
  | began f =>
    rw [step, Option.ite_none_right_eq_some] at hstep
    cases hstep.2
    exact h
  | ended f =>
    rw [step, Option.ite_none_right_eq_some] at hstep
    cases hstep.2
    exact h
  | cancelled f =>
    rw [step, Option.ite_none_right_eq_some] at hstep
    cases hstep.2
    exact h

end Inv

/-! ## The runs of a sink -/

/-- **Every commit is of its own call's statements**, and a connection that is handed out carries
nobody else's, in every state of every run, over a pool or over the single connection, in which no
call is cancelled between its first statement and its commit, and the single connection is asked for
only while no other call has it. If moreover what has been inserted is known to be, **no row is
inserted by two flushes**. -/
theorem allStates_hygienic {ι φ : Type} [DecidableEq ι] [DecidableEq φ] (plan : Plan ι φ)
    (cfg : Option WritePool.Config) {es : List (Event ι φ)}
    (h : AllSteps (step plan cfg) (fun s e _ => Tidy cfg s e) {} es) :
    AllStates (step plan cfg) (fun s => ConnectionHygiene.Hygienic s.conns) {} es
      ∧ (AllSteps (step plan cfg) (fun s e _ => Known plan s e) {} es →
        AllStates (step plan cfg) (InsertedOnce plan) {} es) := by
  refine ⟨?_, fun hknown => ?_⟩
  · have hstep : ∀ s e t, ConnectionHygiene.Inv cfg (ι := ι) s.conns → Tidy cfg s e →
        step plan cfg s e = some t → ConnectionHygiene.Inv cfg t.conns :=
      fun _ _ _ hs htidy hstep => conns_step htidy hstep hs
    exact (allStates_of_step hstep (ConnectionHygiene.inv_init cfg) h).mono
      (fun _ hs => hs.hygienic)
  · have hstep : ∀ s e t, Inv plan cfg s → Tidy cfg s e ∧ Known plan s e →
        step plan cfg s e = some t → Inv plan cfg t :=
      fun _ _ _ hs hguard hstep => inv_step hs hguard.1 hguard.2 hstep
    exact (allStates_of_step hstep (inv_init plan cfg) (h.and hknown)).mono
      (fun _ hs => hs.once)

/-- Two flushes with a call each, for the first row that they find. -/
def oneEach : Plan (Fin 2) (Fin 2) := ⟨id, fun _ => {0}⟩

/-- The statement of the first flush fails, and the second one finds its row. -/
def failsThenWrites : List (Event (Fin 2) (Fin 2)) :=
  [.enqueued, .began 0, .call (.pool (.acquire 0)), .call (.pool (.created 0)),
    .call (.executed 0), .call (.aborted 0), .call (.raised 0), .call (.pool (.closed 0)),
    .ended 0, .began 1, .call (.pool (.acquire 1)), .call (.pool (.created 1)),
    .call (.executed 1), .call (.committed 1), .call (.finished 1), .ended 1]

/-- The row stays in the buffer with the flush that fails, and is inserted by the next one. -/
theorem allStates_hygienic_failsThenWrites :
    AllStates (step oneEach none) (fun s => ConnectionHygiene.Hygienic s.conns) {} failsThenWrites
      ∧ AllStates (step oneEach none) (InsertedOnce oneEach) {} failsThenWrites
      ∧ ∃ t, run (step oneEach none) {} failsThenWrites = some t ∧ t.Inserted 1
        ∧ t.rowsOf oneEach 0 = [0] ∧ t.rowsOf oneEach 1 = [0] ∧ t.buffer = [] := by
  have htidy : AllSteps (step oneEach none) (fun s e _ => Tidy none s e) {} failsThenWrites := by
    decide +kernel
  obtain ⟨hhygienic, honce⟩ := allStates_hygienic oneEach none htidy
  have hrun : (run (step oneEach none) {} failsThenWrites).any (fun t => decide (t.Inserted 1
      ∧ t.rowsOf oneEach 0 = [0] ∧ t.rowsOf oneEach 1 = [0] ∧ t.buffer = [])) = true := by
    decide +kernel
  obtain ⟨t, ht, hall⟩ := (Option.any_eq_true _ _).1 hrun
  exact ⟨hhygienic, honce (by decide +kernel), t, ht, of_decide_eq_true hall⟩

/-- A pool of two connections. -/
def two : WritePool.Config := ⟨2, WritePool.one_lt_two_connections, true⟩

/-- **Statements left behind, and rows.** A call is cancelled after its statement, and the next one
has its connection, single or from the pool, and commits the statement. The same becomes of the
statement of a call that has the single connection at the same time, and fails later. And a row is
inserted twice where nothing is left on a connection: its call is cancelled when the server has done
the commit, or its flush is cancelled after the call has returned. -/
theorem not_hygienic_leftBehind :
    ¬ AllStates (step oneEach none) (fun s => ConnectionHygiene.Hygienic s.conns) {}
        [.enqueued, .began 0, .call (.pool (.acquire 0)), .call (.pool (.created 0)),
          .call (.executed 0), .call (.interrupted 0), .cancelled 0, .began 1,
          .call (.pool (.acquire 1)), .call (.executed 1), .call (.committed 1)]
      ∧ ¬ AllStates (step oneEach (some two)) (fun s => ConnectionHygiene.Hygienic s.conns) {}
        [.enqueued, .began 0, .call (.pool (.acquire 0)), .call (.pool (.created 0)),
          .call (.executed 0), .call (.interrupted 0), .cancelled 0, .began 1,
          .call (.pool (.acquire 1)), .call (.pool (.checked 1 true)), .call (.executed 1),
          .call (.committed 1)]
      ∧ ¬ AllStates (step oneEach none) (fun s => ConnectionHygiene.Hygienic s.conns) {}
        [.enqueued, .began 0, .call (.pool (.acquire 0)), .call (.pool (.created 0)), .began 1,
          .call (.pool (.acquire 1)), .call (.executed 0), .call (.executed 1),
          .call (.committed 1), .call (.aborted 0), .call (.raised 0)]
      ∧ ¬ AllStates (step oneEach none) (InsertedOnce oneEach) {}
        [.enqueued, .began 0, .call (.pool (.acquire 0)), .call (.pool (.created 0)),
          .call (.executed 0), .call (.committed 0), .call (.interrupted 0), .cancelled 0,
          .began 1, .call (.pool (.acquire 1)), .call (.executed 1), .call (.committed 1)]
      ∧ ¬ AllStates (step oneEach none) (InsertedOnce oneEach) {}
        [.enqueued, .began 0, .call (.pool (.acquire 0)), .call (.pool (.created 0)),
          .call (.executed 0), .call (.committed 0), .call (.finished 0), .cancelled 0,
          .began 1, .call (.pool (.acquire 1)), .call (.executed 1), .call (.committed 1)] := by
  refine ⟨fun h => ?_, fun h => ?_, fun h => ?_, fun h => ?_, fun h => ?_⟩
  -- in the first three runs the last commit is of both statements
  · exact absurd ((h.last (t := _) rfl).committed (1, [0, 1]) (.head _) 0 (.head _)) (by decide)
  · exact absurd ((h.last (t := _) rfl).committed (1, [0, 1]) (.head _) 0 (.head _)) (by decide)
  · exact absurd ((h.last (t := _) rfl).committed (1, [0, 1]) (.head _) 0 (.head _)) (by decide)
  -- in the other two there is a commit of each, and both of the row
  · have honce := h.last (t := _) rfl 0 1 ⟨(0, [0]), .head _, .head _⟩
      ⟨(1, [1]), .tail _ (.head _), .head _⟩ 0 (by decide) (by decide)
    cases honce
  · have honce := h.last (t := _) rfl 0 1 ⟨(0, [0]), .head _, .head _⟩
      ⟨(1, [1]), .tail _ (.head _), .head _⟩ 0 (by decide) (by decide)
    cases honce

end FlushHygiene

import AgoraPlugins.Dlq.Record

/-!
# What a DLQ does with replays

A DLQ, as far as the replays of one record go, is a state from which a scan may return
the record, and a replay that changes the state or fails. The record is replayed as it
was scanned, and scanned again. The accounting is right if after `k` replays the scan
returns the same record with `k` more attempts.

Whether it is right is decided by a single replay: it is if a scan after a replay gives
what the replay returned, and it is not if the scan does not notice the replay.
-/

namespace Dlq

/-- Replays that look at `max_attempts` leave the record out. -/
def DLQRecord.exhausted {δ : Type} (r : DLQRecord δ) : Bool :=
  r.maxAttempts.any (fun n => n ≤ r.attempt)

/-- **A DLQ with a record in it**, seen through the scans and the replays of this record.
A scan that does not return it gives nothing, and neither does a replay that fails. -/
structure ReplayQueue (δ σ : Type) where
  scan : σ → Option (DLQRecord δ)
  replay : DLQRecord δ → σ → Option σ

namespace ReplayQueue

variable {δ σ : Type} (q : ReplayQueue δ σ)

/-- The state after so many replays, each of the record as it is scanned. -/
def replays : ℕ → σ → Option σ
  | 0, s => some s
  | k + 1, s => do
    let r ← q.scan s
    let t ← q.replay r s
    replays k t

/-- **Replays are counted** from this state on. -/
def CountsReplays (s : σ) : Prop :=
  ∃ r, q.scan s = some r ∧ ∀ k t, q.replays k s = some t →
    q.scan t = some { r with attempt := r.attempt + k }

variable {q}

theorem replays_succ {s : σ} {r : DLQRecord δ} (h : q.scan s = some r) (k : ℕ) :
    q.replays (k + 1) s = (q.replay r s).bind (q.replays k) := by
  show (q.scan s).bind (fun r => (q.replay r s).bind (q.replays k)) = _
  rw [h]
  rfl

/-- **Replays are counted where each is noticed.** -/
theorem countsReplays_of_replayed {I : σ → Prop}
    (hstep : ∀ s r t, I s → q.scan s = some r → q.replay r s = some t →
      I t ∧ q.scan t = some r.replayed)
    {s : σ} (hs : I s) {r : DLQRecord δ} (hr : q.scan s = some r) : q.CountsReplays s := by
  refine ⟨r, hr, fun k => ?_⟩
  induction k generalizing s r with
  | zero =>
    intro t ht
    have hst : s = t := Option.some.inj ht
    rw [← hst, hr]
    simp
  | succ k ih =>
    intro t ht
    rw [replays_succ hr] at ht
    obtain ⟨u, hu, ht⟩ := Option.bind_eq_some_iff.1 ht
    obtain ⟨hnext, hscan⟩ := hstep s r u hs hr hu
    have hattempt : r.replayed.attempt + (k : ℤ) = r.attempt + ((k + 1 : ℕ) : ℤ) := by
      show r.attempt + 1 + (k : ℤ) = _
      push_cast
      omega
    rw [ih hnext hscan t ht, hattempt]
    rfl

/-- Where no replay succeeds there is nothing to count. -/
theorem countsReplays_of_not_replayed {s : σ} {r : DLQRecord δ} (hr : q.scan s = some r)
    (h : q.replay r s = none) : q.CountsReplays s := by
  refine ⟨r, hr, fun k t ht => ?_⟩
  cases k with
  | zero =>
    have hst : s = t := Option.some.inj ht
    rw [← hst, hr]
    simp
  | succ k =>
    rw [replays_succ hr, h] at ht
    cases ht

/-- **They are not counted where one is not noticed.** -/
theorem not_countsReplays_of_scan_eq {s t : σ} {r : DLQRecord δ} (hr : q.scan s = some r)
    (ht : q.replay r s = some t) (hscan : q.scan t = some r) : ¬ q.CountsReplays s := by
  rintro ⟨r', hr', hcount⟩
  cases hr.symm.trans hr'
  have hone := hcount 1 t (by rw [replays_succ hr, ht]; rfl)
  rw [hscan] at hone
  have hattempt : r.attempt = r.attempt + 1 := congrArg DLQRecord.attempt (Option.some.inj hone)
  omega

/-- **Counting replays makes an end of them**, for a record that says how many there may
be. -/
theorem CountsReplays.exhausted {s : σ} (h : q.CountsReplays s) {r : DLQRecord δ}
    (hr : q.scan s = some r) {n : ℤ} (hn : r.maxAttempts = some n) {k : ℕ}
    (hk : n ≤ r.attempt + k) {t : σ} (ht : q.replays k s = some t) :
    ∃ r', q.scan t = some r' ∧ r'.exhausted = true := by
  obtain ⟨r', hr', hcount⟩ := h
  cases hr.symm.trans hr'
  refine ⟨_, hcount k t ht, ?_⟩
  unfold DLQRecord.exhausted
  dsimp only
  rw [hn]
  exact decide_eq_true hk

end ReplayQueue

end Dlq

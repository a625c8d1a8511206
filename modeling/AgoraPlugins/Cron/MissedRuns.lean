import AgoraPlugins.FirstElements
import AgoraPlugins.Reply
import Mathlib.Algebra.Order.Group.Int
import Mathlib.Data.Int.ConditionallyCompleteOrder
import Mathlib.Order.Interval.Set.Basic

/-!
# Missed runs

`missed_run_times` takes the runs of a schedule after `since`, one after the other, until one is out
of the window or there are as many as the limit. In the latter case it looks at one run more, and
warns if this one is in the window as well.

Python compares two datetimes with the same time zone by their local times, and only those with
different ones by their instants; and in the latter case a time that the clocks show twice is equal
to nothing. So what the loop takes for the window is not always the window. It is where each run
that it looks at is on the side of `until` on which its instant is (`Cron.catches_iff`), as it is in
UTC (`Cron.comparedAsInstants_of_utc`).
-/

namespace Cron

/-! ## Datetimes -/

/-- **Time zones**: what is to be added to the instant, for a local time and its fold. -/
structure Zones (Z : Type) where
  utcoffset : Z → ℤ → Bool → ℤ
  utc : Z
  utcoffset_utc : ∀ time fold, utcoffset utc time fold = 0

/-- **A datetime**, with its local time as a number, in a unit as small as is needed. -/
structure DateTime (Z : Type) where
  time : ℤ
  fold : Bool
  tzinfo : Option Z
  deriving DecidableEq

/-- **A datetime with a time zone.** -/
structure Aware (Z : Type) where
  time : ℤ
  fold : Bool
  tzinfo : Z
  deriving DecidableEq

namespace Aware

variable {Z : Type} (zones : Zones Z)

/-- The offset, for one fold or for the other. -/
def utcoffset (a : Aware Z) : ℤ := zones.utcoffset a.tzinfo a.time a.fold

/-- **The instant.** -/
def instant (a : Aware Z) : ℤ := a.time - a.utcoffset zones

/-- The offset depends on the fold: the clocks show the time twice, or not at all. -/
def Repeated (a : Aware Z) : Prop :=
  a.utcoffset zones ≠ zones.utcoffset a.tzinfo a.time (!a.fold)

instance (a : Aware Z) : Decidable (a.Repeated zones) :=
  inferInstanceAs (Decidable (_ ≠ _))

variable [DecidableEq Z]

/-- **`astimezone(UTC)`**, which returns what has this time zone already. -/
def astimezoneUtc (a : Aware Z) : Aware Z :=
  if a.tzinfo = zones.utc then a else ⟨a.instant zones, false, zones.utc⟩

/-- **`datetime.__lt__`.** -/
def lt (a b : Aware Z) : Bool :=
  if a.tzinfo = b.tzinfo then a.time < b.time else a.instant zones < b.instant zones

/-- **`datetime.__eq__`.** -/
def eq (a b : Aware Z) : Bool :=
  if a.tzinfo = b.tzinfo then a.time = b.time
  else ¬ a.Repeated zones ∧ ¬ b.Repeated zones ∧ a.instant zones = b.instant zones

end Aware

/-! ## The function -/

/-- **`CronTimezoneMode`**, or another text. -/
inductive CronTimezoneMode where
  | wallClock
  | utc
  | other (text : String)
  deriving DecidableEq

/-- **What is used of `croniter`**: whether an expression is valid, and what `get_next` returns, for
an expression and a start, when it has been called so many times. -/
structure Croniter (Z : Type) where
  isValid : String → Bool
  getNext : String → Aware Z → ℕ → DateTime Z

variable {Z : Type} [DecidableEq Z] (zones : Zones Z)

def valueError (text : String) : Exc := .exception "ValueError" text

/-- **`_cron_base`.** -/
def cronBase (value : DateTime Z) (timezoneMode : CronTimezoneMode) : Except Exc (Aware Z) :=
  match value.tzinfo with
  | none => .error (valueError "cron helpers require timezone-aware datetimes.")
  | some tzinfo =>
    match timezoneMode with
    | .wallClock => .ok ⟨value.time, value.fold, tzinfo⟩
    | .utc => .ok (Aware.astimezoneUtc zones ⟨value.time, value.fold, tzinfo⟩)
    | .other _ => .error (valueError "timezone_mode must be 'wall-clock' or 'utc'.")

/-- **`_normalize_cron_result`.** -/
def normalizeCronResult (value : DateTime Z) (base : Aware Z) : Aware Z :=
  ⟨value.time, value.fold, value.tzinfo.getD base.tzinfo⟩

/-- The loop leaves at this run. -/
def outOfWindow (until_ : Aware Z) (includeUntil : Bool) (runAt : Aware Z) : Bool :=
  until_.lt zones runAt || (runAt.eq zones until_ && !includeUntil)

/-- One run more is in the window. -/
def inWindow (until_ : Aware Z) (includeUntil : Bool) (nextRun : Aware Z) : Bool :=
  nextRun.lt zones until_ || (nextRun.eq zones until_ && includeUntil)

/-- The loop, for so many runs more, when `get_next` has been called so many times. -/
def collectRuns (next : ℕ → Aware Z) (until_ : Aware Z) (includeUntil : Bool) :
    ℕ → ℕ → List (Aware Z)
  | 0, _ => []
  | remaining + 1, calls =>
    if outOfWindow zones until_ includeUntil (next calls) then []
    else next calls :: collectRuns next until_ includeUntil remaining (calls + 1)

/-- What `get_next` gives from some start, normalized. -/
def nextRun (cron : Croniter Z) (expression : String) (base : Aware Z) (calls : ℕ) : Aware Z :=
  normalizeCronResult (cron.getNext expression base calls) base

/-- **`missed_run_times`**: the runs, and whether it warns. -/
def missedRunTimes (cron : Croniter Z) (expression : String) (since until_ : DateTime Z)
    (limit : ℤ) (includeUntil : Bool) (timezoneMode : CronTimezoneMode) :
    Except Exc (List (Aware Z) × Bool) :=
  if limit ≤ 0 then .error (valueError "limit must be greater than zero.")
  else do
    let since ← cronBase zones since timezoneMode
    let until_ ← cronBase zones until_ timezoneMode
    if until_.lt zones since then
      .error (valueError "until must be greater than or equal to since.")
    else if ¬ cron.isValid expression then
      .error (valueError ("Invalid cron expression: '" ++ expression ++ "'"))
    else
      let next := nextRun cron expression since
      let runs := collectRuns zones next until_ includeUntil limit.toNat 0
      if runs.length = limit.toNat then
        .ok (runs, inWindow zones until_ includeUntil (next limit.toNat))
      else .ok (runs, false)

/-! ## The window -/

/-- A time is not after the window. -/
def Before (until_ : ℤ) (includeUntil : Bool) (t : ℤ) : Prop :=
  t < until_ ∨ (t = until_ ∧ includeUntil = true)

/-- **The runs in the window**, with its end or without it. -/
def window (runs : ℕ → ℤ) (since until_ : ℤ) (includeUntil : Bool) : Set ℤ :=
  Set.range runs ∩ if includeUntil then Set.Ioc since until_ else Set.Ioo since until_

section Window

variable {runs : ℕ → ℤ} {since until_ : ℤ} {includeUntil : Bool}

theorem Before.of_le {s t : ℤ} (h : Before until_ includeUntil t) (hle : s ≤ t) :
    Before until_ includeUntil s := by
  rcases h with h | ⟨rfl, h⟩
  · exact .inl (hle.trans_lt h)
  · rcases hle.lt_or_eq with hlt | rfl
    · exact .inl hlt
    · exact .inr ⟨rfl, h⟩

/-- All runs are after the start, so the window is a matter of its end. -/
theorem window_eq (hruns : StrictMono runs) (hfirst : since < runs 0) :
    window runs since until_ includeUntil = rangeWith runs (Before until_ includeUntil) := by
  have hafter : ∀ i, since < runs i := fun i => hfirst.trans_le (hruns.monotone (Nat.zero_le i))
  ext t
  constructor
  · rintro ⟨hrange, ht⟩
    refine ⟨hrange, ?_⟩
    cases includeUntil with
    | true => exact ht.2.lt_or_eq.imp id (fun heq => ⟨heq, rfl⟩)
    | false => exact .inl ht.2
  · rintro ⟨⟨i, rfl⟩, ht⟩
    refine ⟨⟨i, rfl⟩, ?_⟩
    cases includeUntil with
    | true => exact ⟨hafter i, ht.elim le_of_lt (fun h => h.1.le)⟩
    | false => exact ⟨hafter i, ht.resolve_right (fun h => Bool.false_ne_true h.2)⟩

end Window

/-! ## Comparing a run with the end of the window -/

/-- **A run is on the side of `until` on which its instant is.** With the same time zone, its local
time has to be on this side. With another one, a run at `until` has to be equal to it, where it is
asked whether it is. -/
def Placed (until_ : Aware Z) (includeUntil asked : Bool) (run : Aware Z) : Prop :=
  if run.tzinfo = until_.tzinfo then
    Before until_.time includeUntil run.time
      ↔ Before (until_.instant zones) includeUntil (run.instant zones)
  else run.instant zones = until_.instant zones → asked = true →
    ¬ run.Repeated zones ∧ ¬ until_.Repeated zones

variable {until_ run : Aware Z} {includeUntil : Bool}

/-- **The loop** asks whether a run is at the end of the window to leave it out. -/
theorem placed_iff_outOfWindow : Placed zones until_ includeUntil (!includeUntil) run ↔
    (outOfWindow zones until_ includeUntil run = false
      ↔ Before (until_.instant zones) includeUntil (run.instant zones)) := by
  unfold Placed outOfWindow Aware.lt Aware.eq
  by_cases hzone : run.tzinfo = until_.tzinfo
  · rw [if_pos hzone, if_pos hzone.symm, if_pos hzone]
    have hlocal : (decide (until_.time < run.time)
        || decide (run.time = until_.time) && !includeUntil) = false
        ↔ Before until_.time includeUntil run.time := by
      unfold Before
      cases includeUntil <;> simp <;> omega
    rw [hlocal]
  · rw [if_neg hzone, if_neg (fun h => hzone h.symm), if_neg hzone]
    unfold Before
    cases includeUntil with
    | true => simp [le_iff_lt_or_eq]
    | false =>
      by_cases heq : run.instant zones = until_.instant zones
      · simp [heq]
      · simp [heq, le_iff_lt_or_eq]

/-- **The last comparison** asks whether a run is at the end of the window to count it. -/
theorem placed_iff_inWindow : Placed zones until_ includeUntil includeUntil run ↔
    (inWindow zones until_ includeUntil run = true
      ↔ Before (until_.instant zones) includeUntil (run.instant zones)) := by
  unfold Placed inWindow Aware.lt Aware.eq
  by_cases hzone : run.tzinfo = until_.tzinfo
  · rw [if_pos hzone, if_pos hzone, if_pos hzone]
    have hlocal : (decide (run.time < until_.time)
        || decide (run.time = until_.time) && includeUntil) = true
        ↔ Before until_.time includeUntil run.time := by
      unfold Before
      cases includeUntil <;> simp
    rw [hlocal]
  · rw [if_neg hzone, if_neg hzone, if_neg hzone]
    unfold Before
    cases includeUntil with
    | false => simp
    | true =>
      by_cases heq : run.instant zones = until_.instant zones
      · simp [heq]
      · simp [heq]

omit [DecidableEq Z] in
/-- In UTC the local time is the instant. -/
theorem instant_of_utc {a : Aware Z} (h : a.tzinfo = zones.utc) : a.instant zones = a.time := by
  unfold Aware.instant Aware.utcoffset
  rw [h, zones.utcoffset_utc, Int.sub_zero]

theorem placed_of_utc {asked : Bool} (huntil : until_.tzinfo = zones.utc)
    (hrun : run.tzinfo = zones.utc) : Placed zones until_ includeUntil asked run := by
  unfold Placed
  rw [if_pos (hrun.trans huntil.symm), instant_of_utc zones hrun, instant_of_utc zones huntil]

theorem tzinfo_of_cronBase_utc {value : DateTime Z} {base : Aware Z}
    (h : cronBase zones value .utc = .ok base) : base.tzinfo = zones.utc := by
  unfold cronBase at h
  cases htz : value.tzinfo with
  | none =>
    rw [htz] at h
    cases h
  | some tzinfo =>
    rw [htz] at h
    obtain rfl := Except.ok.inj h
    unfold Aware.astimezoneUtc
    split
    · assumption
    · rfl

/-! ## The runs that are returned -/

/-- **The loop leaves at the first run that it takes to be out of the window**, or when it has
enough. By induction on how many are left. -/
theorem collectRuns_eq (next : ℕ → Aware Z) (until_ : Aware Z) (includeUntil : Bool) :
    ∀ remaining calls : ℕ, ∃ k ≤ remaining,
      collectRuns zones next until_ includeUntil remaining calls
          = (List.range k).map (fun i => next (calls + i))
        ∧ (∀ i < k, outOfWindow zones until_ includeUntil (next (calls + i)) = false)
        ∧ (k = remaining ∨ outOfWindow zones until_ includeUntil (next (calls + k)) = true)
  | 0, calls => ⟨0, Nat.le_refl 0, rfl, fun i hi => absurd hi (Nat.not_lt_zero i), .inl rfl⟩
  | remaining + 1, calls => by
    rw [collectRuns]
    cases hout : outOfWindow zones until_ includeUntil (next calls) with
    | true => exact ⟨0, Nat.zero_le _, rfl, fun i hi => absurd hi (Nat.not_lt_zero i), .inr hout⟩
    | false =>
      obtain ⟨k, hle, heq, hall, hstop⟩ :=
        collectRuns_eq next until_ includeUntil remaining (calls + 1)
      have hshift : ∀ i, calls + 1 + i = calls + (i + 1) := fun i => by omega
      rw [if_neg Bool.false_ne_true, heq]
      refine ⟨k + 1, Nat.succ_le_succ hle, ?_, ?_, ?_⟩
      · rw [List.range_succ_eq_map, List.map_cons, List.map_map]
        simp only [hshift]
        rfl
      · intro i hi
        cases i with
        | zero => exact hout
        | succ i =>
          rw [← hshift]
          exact hall i (Nat.lt_of_succ_lt_succ hi)
      · rw [hshift] at hstop
        exact hstop.imp (fun h => by rw [h]) id

/-- **The result is what it should be**: the first runs in the window, in order, and a warning if
there are more. -/
def Catches (next : ℕ → Aware Z) (since until_ : Aware Z) (limit : ℤ) (includeUntil : Bool)
    (result : Except Exc (List (Aware Z) × Bool)) : Prop :=
  ∃ runs warns, result = .ok (runs, warns)
    ∧ runs = (List.range runs.length).map next
    ∧ FirstOf (window (fun i => (next i).instant zones) (since.instant zones)
        (until_.instant zones) includeUntil) limit.toNat (runs.map (Aware.instant zones))
    ∧ (warns = true ↔ (limit.toNat : ℕ∞) < (window (fun i => (next i).instant zones)
        (since.instant zones) (until_.instant zones) includeUntil).encard)

/-- **What is compared is compared as instants are**: `until` with `since`, and with `until` each of
the runs, up to the first after the window and up to the one that comes after the limit. -/
def ComparedAsInstants (next : ℕ → Aware Z) (since until_ : Aware Z) (limit : ℤ)
    (includeUntil : Bool) : Prop :=
  until_.lt zones since = false ∧
    ∀ i ≤ limit.toNat,
      (∀ j < i, Before (until_.instant zones) includeUntil ((next j).instant zones)) →
      Placed zones until_ includeUntil (if i < limit.toNat then !includeUntil else includeUntil)
        (next i)

theorem comparedAsInstants_of_utc {next : ℕ → Aware Z} {since until_ : Aware Z} (limit : ℤ)
    (includeUntil : Bool) (hsince : since.tzinfo = zones.utc) (huntil : until_.tzinfo = zones.utc)
    (hle : since.instant zones ≤ until_.instant zones)
    (hnext : ∀ i, (next i).tzinfo = zones.utc) :
    ComparedAsInstants zones next since until_ limit includeUntil := by
  refine ⟨?_, fun i _ _ => placed_of_utc zones huntil (hnext i)⟩
  unfold Aware.lt
  rw [if_pos (huntil.trans hsince.symm), ← instant_of_utc zones hsince,
    ← instant_of_utc zones huntil]
  exact decide_eq_false (not_lt.2 hle)

omit [DecidableEq Z] in
/-- The runs that are taken are all there are in the window, or as many as the limit. -/
theorem not_before_of_firstOf {next : ℕ → Aware Z} {s : Set ℤ} {limit k : ℕ}
    (hruns : StrictMono (fun i => (next i).instant zones))
    (hfirst : FirstOf s limit (((List.range k).map next).map (Aware.instant zones)))
    (hk : k ≠ limit) : (next k).instant zones ∉ s := by
  intro hmem
  have hnot : (next k).instant zones ∉ ((List.range k).map next).map (Aware.instant zones) := by
    rw [List.map_map]
    intro hin
    obtain ⟨i, hi, heq⟩ := List.mem_map.1 hin
    exact (List.mem_range.1 hi).ne (hruns.injective heq)
  have hlength := (hfirst.before _ hmem hnot).1
  rw [List.length_map, List.length_map, List.length_range] at hlength
  exact hk hlength

/-- **When the runs are those of the window.** The schedule is what `get_next` gives, and it is in
order and after `since`. -/
theorem catches_iff (cron : Croniter Z) (expression : String) {since until_ : DateTime Z}
    {limit : ℤ} (includeUntil : Bool) {timezoneMode : CronTimezoneMode} {start stop : Aware Z}
    (hsince : cronBase zones since timezoneMode = .ok start)
    (huntil : cronBase zones until_ timezoneMode = .ok stop)
    (hlimit : 1 ≤ limit) (hvalid : cron.isValid expression = true)
    (hruns : StrictMono (fun i => (nextRun cron expression start i).instant zones))
    (hafter : start.instant zones < (nextRun cron expression start 0).instant zones) :
    Catches zones (nextRun cron expression start) start stop limit includeUntil
        (missedRunTimes zones cron expression since until_ limit includeUntil timezoneMode)
      ↔ ComparedAsInstants zones (nextRun cron expression start) start stop limit includeUntil := by
  -- the loop stops at the `k`-th run
  obtain ⟨k, hk, heq, hall, hstop⟩ :=
    collectRuns_eq zones (nextRun cron expression start) stop includeUntil limit.toNat 0
  simp only [Nat.zero_add] at heq hall hstop
  set next := nextRun cron expression start with hnext
  have hlower : ∀ i j, i ≤ j → Before (stop.instant zones) includeUntil ((next j).instant zones) →
      Before (stop.instant zones) includeUntil ((next i).instant zones) :=
    fun i j hij h => h.of_le (hruns.monotone hij)
  have hmore := lt_encard_iff hruns hlower limit.toNat
  have hlength : ((List.range k).map next).length = k := by
    rw [List.length_map, List.length_range]
  -- so the result is known, and is compared with the window
  have hresult : missedRunTimes zones cron expression since until_ limit includeUntil timezoneMode
      = if stop.lt zones start then
          .error (valueError "until must be greater than or equal to since.")
        else .ok ((List.range k).map next,
          decide (k = limit.toNat) && inWindow zones stop includeUntil (next limit.toNat)) := by
    unfold missedRunTimes
    rw [if_neg (by omega), hsince, huntil]
    dsimp only [bind, Except.bind]
    rw [← hnext, hvalid, heq, hlength, if_neg (not_not.2 rfl)]
    by_cases hfull : k = limit.toNat
    · rw [if_pos hfull, decide_eq_true hfull, Bool.true_and]
    · rw [if_neg hfull, decide_eq_false hfull, Bool.false_and]
  unfold Catches ComparedAsInstants
  rw [hresult, window_eq hruns hafter, hmore]
  cases hcheck : stop.lt zones start with
  | true =>
    refine ⟨?_, fun h => absurd h.1 Bool.noConfusion⟩
    rintro ⟨runs, warns, h, -⟩
    exact absurd h nofun
  | false =>
    rw [if_neg Bool.false_ne_true]
    constructor
    · rintro ⟨runs, warns, h, -, hfirst, hwarns⟩
      obtain ⟨rfl, rfl⟩ := Prod.mk.inj (Except.ok.inj h)
      refine ⟨rfl, fun i hi hbefore => ?_⟩
      have hfull : k ≠ limit.toNat →
          ¬ Before (stop.instant zones) includeUntil ((next k).instant zones) :=
        fun hne hk => not_before_of_firstOf zones hruns hfirst hne ⟨⟨k, rfl⟩, hk⟩
      by_cases hlt : i < limit.toNat
      · rw [if_pos hlt]
        refine (placed_iff_outOfWindow zones).2 ?_
        by_cases hik : i < k
        · refine iff_of_true (hall i hik) (hfirst.mem _ ?_).2
          exact List.mem_map_of_mem (List.mem_map_of_mem (List.mem_range.2 hik))
        · -- the loop has been left, at a run that is out of the window
          have hne : k ≠ limit.toNat := by omega
          have hki : i = k := by
            by_contra hne'
            exact hfull hne (hbefore k (by omega))
          rw [hki]
          refine iff_of_false ?_ (hfull hne)
          rw [hstop.resolve_left hne]
          exact Bool.noConfusion
      · obtain rfl : i = limit.toNat := by omega
        have hkl : k = limit.toNat := by
          by_contra hne
          exact hfull hne (hbefore k (by omega))
        rw [if_neg (lt_irrefl _)]
        rw [decide_eq_true hkl, Bool.true_and] at hwarns
        exact (placed_iff_inWindow zones).2 hwarns
    · rintro ⟨-, hplaced⟩
      have hbefore : ∀ i < k,
          Before (stop.instant zones) includeUntil ((next i).instant zones) := by
        intro i
        induction i using Nat.strong_induction_on with
        | _ i ih =>
          intro hik
          have h := hplaced i (by omega) (fun j hj => ih j hj (by omega))
          rw [if_pos (by omega)] at h
          exact ((placed_iff_outOfWindow zones).1 h).1 (hall i hik)
      have hleft : k ≠ limit.toNat →
          ¬ Before (stop.instant zones) includeUntil ((next k).instant zones) := by
        intro hne hk'
        have h := hplaced k hk hbefore
        rw [if_pos (by omega)] at h
        have hin := ((placed_iff_outOfWindow zones).1 h).2 hk'
        rw [hstop.resolve_left hne] at hin
        exact Bool.noConfusion hin
      refine ⟨_, _, rfl, by rw [hlength], ?_, ?_⟩
      · rw [List.map_map]
        exact firstOf_map_range hruns hlower hk hbefore (or_iff_not_imp_left.2 hleft)
      · by_cases hfull : k = limit.toNat
        · have h := hplaced k hk hbefore
          rw [if_neg (by omega)] at h
          rw [decide_eq_true hfull, Bool.true_and, ← hfull]
          exact (placed_iff_inWindow zones).1 h
        · rw [decide_eq_false hfull, Bool.false_and]
          exact iff_of_false Bool.false_ne_true (fun h => hleft hfull (hlower k _ hk h))

/-- **The runs are those of the window exactly where instants are compared**, and in UTC they
are. -/
theorem missedRunTimes_iff (cron : Croniter Z) (expression : String) {since until_ : DateTime Z}
    {limit : ℤ} (includeUntil : Bool) {timezoneMode : CronTimezoneMode} {start stop : Aware Z}
    (hsince : cronBase zones since timezoneMode = .ok start)
    (huntil : cronBase zones until_ timezoneMode = .ok stop)
    (hlimit : 1 ≤ limit) (hvalid : cron.isValid expression = true)
    (hruns : StrictMono (fun i => (nextRun cron expression start i).instant zones))
    (hafter : start.instant zones < (nextRun cron expression start 0).instant zones) :
    (Catches zones (nextRun cron expression start) start stop limit includeUntil
        (missedRunTimes zones cron expression since until_ limit includeUntil timezoneMode)
      ↔ ComparedAsInstants zones (nextRun cron expression start) start stop limit includeUntil)
    ∧ (timezoneMode = .utc → start.instant zones ≤ stop.instant zones →
      (∀ i, (nextRun cron expression start i).tzinfo = zones.utc) →
      ComparedAsInstants zones (nextRun cron expression start) start stop limit includeUntil) := by
  refine ⟨catches_iff zones cron expression includeUntil hsince huntil hlimit hvalid hruns hafter,
    ?_⟩
  rintro rfl hle hutc
  exact comparedAsInstants_of_utc zones limit includeUntil (tzinfo_of_cronBase_utc zones hsince)
    (tzinfo_of_cronBase_utc zones huntil) hle hutc

/-! ## The night on which the clocks go back -/

/-- UTC, and a zone two hours ahead of it whose clocks go back from three to two, after which it is
one hour ahead. Times are in minutes. -/
def backAtThree : Zones Bool where
  utcoffset zone time fold :=
    if zone = false then 0
    else if time < 120 ∨ (time < 180 ∧ fold = false) then 120 else 60
  utc := false
  utcoffset_utc _ _ := rfl

/-- What the clocks of a zone show at an instant. -/
def shown (zone : Bool) (instant : ℤ) : DateTime Bool :=
  if zone = false then ⟨instant, false, some false⟩
  else if instant < 60 then ⟨instant + 120, false, some true⟩
  else ⟨instant + 60, instant < 120, some true⟩

theorem instant_shown (zone : Bool) (instant : ℤ) (base : Aware Bool) :
    (normalizeCronResult (shown zone instant) base).instant backAtThree = instant := by
  unfold shown normalizeCronResult Aware.instant Aware.utcoffset backAtThree
  cases zone with
  | false => simp
  | true =>
    by_cases h : instant < 60
    · simp [h]
      omega
    · by_cases h' : instant < 120
      · simp [h, h']
        omega
      · simp [h, h']
        omega

/-- Every half hour, from midnight UTC. -/
def halfHourly : Croniter Bool where
  isValid expression := expression = "*/30 * * * *"
  getNext _ base calls := shown base.tzinfo (30 * calls)

theorem instant_halfHourly (base : Aware Bool) :
    (fun i => (nextRun halfHourly "*/30 * * * *" base i).instant backAtThree)
      = fun i : ℕ => 30 * (i : ℤ) := by
  funext i
  exact instant_shown base.tzinfo (30 * i) base

theorem strictMono_halfHourly (base : Aware Bool) :
    StrictMono (fun i => (nextRun halfHourly "*/30 * * * *" base i).instant backAtThree) := by
  rw [instant_halfHourly]
  intro i j hij
  dsimp only
  omega

/-- Half past one, before the clocks go back, and a quarter past two, after that. -/
def halfPastOne : DateTime Bool := ⟨90, false, some true⟩

def quarterPastTwo : DateTime Bool := ⟨135, true, some true⟩

/-- **Two runs of three are missed**: the clocks show half past two before, and then two o'clock
again. -/
theorem not_catches_quarterPastTwo :
    cronBase backAtThree halfPastOne .wallClock = .ok ⟨90, false, true⟩
    ∧ cronBase backAtThree quarterPastTwo .wallClock = .ok ⟨135, true, true⟩
    ∧ Aware.instant backAtThree ⟨90, false, true⟩ ≤ Aware.instant backAtThree ⟨135, true, true⟩
    ∧ halfHourly.isValid "*/30 * * * *" = true
    ∧ StrictMono (fun i => (nextRun halfHourly "*/30 * * * *" ⟨90, false, true⟩ i).instant
        backAtThree)
    ∧ Aware.instant backAtThree ⟨90, false, true⟩
      < (nextRun halfHourly "*/30 * * * *" ⟨90, false, true⟩ 0).instant backAtThree
    ∧ missedRunTimes backAtThree halfHourly "*/30 * * * *" halfPastOne quarterPastTwo 100 true
        .wallClock = .ok ([⟨120, false, true⟩], false)
    ∧ ¬ Catches backAtThree (nextRun halfHourly "*/30 * * * *" ⟨90, false, true⟩)
        ⟨90, false, true⟩ ⟨135, true, true⟩ 100 true
        (missedRunTimes backAtThree halfHourly "*/30 * * * *" halfPastOne quarterPastTwo 100 true
          .wallClock) := by
  have hmono := strictMono_halfHourly ⟨90, false, true⟩
  have hresult : missedRunTimes backAtThree halfHourly "*/30 * * * *" halfPastOne quarterPastTwo
      100 true .wallClock = .ok ([⟨120, false, true⟩], false) := by
    decide
  refine ⟨rfl, rfl, by decide, by decide, hmono, by decide, hresult, ?_⟩
  rw [hresult]
  rintro ⟨runs, warns, h, -, hfirst, -⟩
  obtain ⟨rfl, rfl⟩ := Prod.mk.inj (Except.ok.inj h)
  refine not_before_of_firstOf (k := 1) backAtThree hmono hfirst (by decide) ?_
  exact ⟨⟨1, rfl⟩, by decide, by decide⟩

/-- **In UTC they are there.** -/
theorem catches_utc :
    Catches backAtThree (nextRun halfHourly "*/30 * * * *" ⟨-30, false, false⟩)
      ⟨-30, false, false⟩ ⟨75, false, false⟩ 100 true
      (missedRunTimes backAtThree halfHourly "*/30 * * * *" halfPastOne quarterPastTwo 100 true
        .utc) := by
  have h := @missedRunTimes_iff Bool _ backAtThree halfHourly "*/30 * * * *" halfPastOne
    quarterPastTwo 100 true .utc _ _ rfl rfl (by decide) (by decide) (strictMono_halfHourly _)
    (by decide)
  exact h.1.2 (h.2 rfl (by decide) (fun i => rfl))

end Cron

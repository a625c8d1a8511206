import Mathlib.Data.Rat.Floor
import AgoraPlugins.Json
import AgoraPlugins.Machine

/-!
# The Redis state backend

A value is stored with the time it expires at, twice: in the JSON text under the key,
where a client looks, and as a time to live, by which Redis drops the key. The time to
live is rounded up to milliseconds and counted from when the command comes to Redis, so
it never ends before the value expires, and a client may find a value that has.

A `get` that finds one deletes the key. This is a command of its own, and by the time it
comes to Redis the key may hold another value. Nothing else removes a value that has not
expired, unless it is meant to.

There is one key and one clock, which does not go back. An operation is on its way
between reading the clock and having its command executed, and each of any number of
clients may have any number of them.
-/

open Machine

namespace StateBackend

/-- A time in seconds, as it is given: an integer or a double, which is written as such. One that is
not finite is none, since `math.ceil` raises for it. -/
inductive Seconds where
  | int (n : ℤ)
  | float (negative : Bool) (magnitude : Double.Magnitude)

namespace Seconds

/-- The time that it says. -/
def time : Seconds → ℚ
  | .int n => n
  | .float negative m =>
    mkRat (if negative then -m.units else m.units) (2 ^ Double.fractionBits)

/-- It is written as the number that it is. -/
def json : Seconds → Json
  | .int n => .num n
  | .float negative m => .float (.finite negative m)

/-- What stands in the text for an expiry, or for none. -/
def orNull (expiresAt : Option Seconds) : Json := (expiresAt.map json).getD .null

@[simp] theorem normal_orNull (expiresAt : Option Seconds) :
    (orNull expiresAt).normal = orNull expiresAt := by
  rcases expiresAt with _ | _ | _ <;> rfl

theorem orNull_inj {e f : Option Seconds} (h : orNull e = orNull f) : e = f := by
  rcases e with _ | _ | _ <;> rcases f with _ | _ | _ <;> cases h <;> rfl

end Seconds

/-- `StoredValue`: a value with the time it expires at. The text under a key says both, and it
stands for this text. -/
structure StoredValue where
  value : Json
  expiresAt : Option Seconds

namespace StoredValue

/-- The value has reached its time. -/
def expired (v : StoredValue) (now : ℚ) : Bool := v.expiresAt.any (fun e => e.time ≤ now)

/-- `_state_payload`. -/
def statePayload (v : StoredValue) : Json :=
  .obj [("value", v.value), ("expires_at", Seconds.orNull v.expiresAt)]

/-- The two are written as the same text. -/
def sameText (v w : StoredValue) : Bool :=
  Json.dumps v.statePayload = Json.dumps w.statePayload

/-- `cjson.decode` goes a thousand levels deep, and the value stands in the first. -/
def decodes (v : StoredValue) : Bool := v.value.depth < 1000

/-- What is read from the text. -/
def decoded (v : StoredValue) : StoredValue := { v with value := v.value.normal }

/-- **And so it is**, with its expiry as it was given. -/
theorem loads_statePayload (v : StoredValue) :
    Json.loads (Json.dumps v.statePayload) = some v.decoded.statePayload := by
  rw [Json.loads_dumps]
  simp [statePayload, decoded, Json.normal, Json.normalMembers]

end StoredValue

/-- What is under the key, and when Redis drops it. -/
structure Entry where
  text : StoredValue
  ttlEnd : Option ℚ

/-- A command on its way to Redis. Two of them are `DEL`. -/
inductive Command where
  | set (text : StoredValue) (px : Option ℤ)
  | setNx (text : StoredValue) (px : Option ℤ)
  | compareAndSet (expected next : StoredValue) (px : Option ℤ) (time : ℚ)
  /-- what `set` sends for a value that has expired before it is written -/
  | setExpired
  /-- what `get` sends when it has found a value that has expired -/
  | discard

/-- What an operation returns. -/
inductive Result where
  | value (v : Option StoredValue)
  | flag (b : Bool)
  | none

/-- **Where an operation is.** -/
inductive Task where
  /-- `get` has the text, and has not looked at the clock -/
  | read (text : StoredValue)
  | sent (command : Command)
  | returned (result : Result)

/-- **The state of a run**: the time, what is under the key, and the operations. -/
structure State where
  now : ℚ
  entry : Option Entry
  tasks : List Task
  /-- what was last written, if it has not been removed on purpose -/
  owed : Option StoredValue

namespace State

/-- The clock starts at this time, and the key is not there. -/
def init (now : ℚ) : State := ⟨now, none, [], none⟩

variable (s : State)

/-- What Redis has under the key. -/
def current : Option StoredValue :=
  (s.entry.filter (fun entry => ! entry.ttlEnd.any (fun t => t ≤ s.now))).map Entry.text

/-- **What a `get` returns** that runs now. -/
def readable : Option StoredValue :=
  (s.current.filter (fun text => ! text.expired s.now)).map StoredValue.decoded

def start (t : Task) : State := { s with tasks := s.tasks ++ [t] }

def setTask (i : ℕ) (t : Task) : State := { s with tasks := s.tasks.set i t }

/-- `_ttl_ms`. -/
def ttlMs (expiresAt : Option Seconds) : Option ℤ :=
  expiresAt.map (fun e => ⌈(e.time - s.now) * 1000⌉)

/-- `SET`, with `PX` or without. -/
def put (text : StoredValue) (px : Option ℤ) : State :=
  { s with
    entry := some ⟨text, px.map (fun ms : ℤ => s.now + ms / 1000)⟩
    owed := some text }

/-- `DEL` that is not meant for what is there now. -/
def drop : State := { s with entry := none }

/-- `DEL` that is. -/
def remove : State := { s with entry := none, owed := none }

/-! ## The operations, up to their first command -/

/-- `set`. -/
def set (value : Json) (expiresAt : Option Seconds) : State :=
  match s.ttlMs expiresAt with
  | none => s.start (.sent (.set ⟨value, expiresAt⟩ none))
  | some ms =>
    if ms ≤ 0 then s.start (.sent .setExpired)
    else s.start (.sent (.set ⟨value, expiresAt⟩ (some ms)))

/-- `set_if_absent`. -/
def setIfAbsent (value : Json) (expiresAt : Option Seconds) : State :=
  match s.ttlMs expiresAt with
  | none => s.start (.sent (.setNx ⟨value, expiresAt⟩ none))
  | some ms =>
    if ms ≤ 0 then s.start (.returned (.flag false))
    else s.start (.sent (.setNx ⟨value, expiresAt⟩ (some ms)))

/-- `compare_and_set`. -/
def compareAndSet (expected : Option StoredValue) (value : Json) (expiresAt : Option Seconds) :
    State :=
  match expected with
  | none => s.setIfAbsent value expiresAt
  | some expected =>
    match s.ttlMs expiresAt with
    | none => s.start (.sent (.compareAndSet expected ⟨value, expiresAt⟩ none s.now))
    | some ms =>
      if ms ≤ 0 then s.start (.returned (.flag false))
      else s.start (.sent (.compareAndSet expected ⟨value, expiresAt⟩ (some ms) s.now))

/-- `get`, whose first command is executed at once. -/
def get : State :=
  match s.current with
  | none => s.start (.returned (.value none))
  | some text => s.start (.read text)

/-! ## The commands -/

/-- `_COMPARE_AND_SET_SCRIPT`. -/
def compareAndSetScript (expected next : StoredValue) (px : Option ℤ) (time : ℚ) : Bool × State :=
  match s.current with
  | none => (false, s)
  | some text =>
    if text.decodes && text.expired time then (false, s.drop)
    else if text.sameText expected then (true, s.put next px)
    else (false, s)

/-- A command is executed, and the operation returns. -/
def execute (i : ℕ) : Command → State
  | .set text px => (s.put text px).setTask i (.returned .none)
  | .setNx text px =>
    if s.current.isNone then (s.put text px).setTask i (.returned (.flag true))
    else s.setTask i (.returned (.flag false))
  | .compareAndSet expected next px time =>
    (s.compareAndSetScript expected next px time).2.setTask i
      (.returned (.flag (s.compareAndSetScript expected next px time).1))
  | .setExpired => s.remove.setTask i (.returned .none)
  | .discard => s.drop.setTask i (.returned (.value none))

end State

/-- What can happen. -/
inductive Event where
  | clock (now : ℚ)
  | get
  | set (value : Json) (expiresAt : Option Seconds)
  | setIfAbsent (value : Json) (expiresAt : Option Seconds)
  | compareAndSet (expected : Option StoredValue) (value : Json) (expiresAt : Option Seconds)
  /-- `delete`, or the deletion of the key by `delete_prefix` -/
  | delete
  /-- a `get` that has the text looks at the clock -/
  | checked (task : ℕ)
  | executed (task : ℕ)

/-- **One event.** -/
def step (s : State) : Event → Option State
  | .clock now => if s.now ≤ now then some { s with now := now } else none
  | .get => some s.get
  | .set value expiresAt => some (s.set value expiresAt)
  | .setIfAbsent value expiresAt => some (s.setIfAbsent value expiresAt)
  | .compareAndSet expected value expiresAt => some (s.compareAndSet expected value expiresAt)
  | .delete => some s.remove
  | .checked i =>
    match s.tasks[i]? with
    | some (.read text) =>
      if text.expired s.now then some (s.setTask i (.sent .discard))
      else some (s.setTask i (.returned (.value (some text.decoded))))
    | _ => none
  | .executed i =>
    match s.tasks[i]? with
    | some (.sent command) => some (s.execute i command)
    | _ => none

/-! ## What is owed -/

/-- **No value is lost**: what was last written, and has neither been removed on purpose
nor expired, is what a `get` returns. -/
def State.Kept (s : State) : Prop :=
  ∀ v ∈ s.owed, v.expired s.now = false → s.readable = some v.decoded

/-- **When a `get` does no harm**: there is nothing left to read under the key when its
deletion comes. -/
def Guard (s : State) : Event → Prop
  | .executed i =>
    match s.tasks[i]? with
    | some (.sent .discard) => s.readable = none
    | _ => True
  | _ => True

/-! ## What holds throughout -/

/-- A time to live does not end before the value expires. -/
def Covers (ttlEnd : Option ℚ) (expiresAt : Option Seconds) : Prop :=
  ∀ t ∈ ttlEnd, ∃ e ∈ expiresAt, e.time ≤ t

/-- A time to live that is counted from now covers the value. -/
def PxCovers (now : ℚ) (px : Option ℤ) (expiresAt : Option Seconds) : Prop :=
  Covers (px.map (fun ms : ℤ => now + ms / 1000)) expiresAt

/-- **A command carries what it was computed from**, and no time that is still to come. -/
def Command.Sound (now : ℚ) : Command → Prop
  | .set text px => PxCovers now px text.expiresAt
  | .setNx text px => PxCovers now px text.expiresAt
  | .compareAndSet _ next px time => PxCovers now px next.expiresAt ∧ time ≤ now
  | .setExpired | .discard => True

def Task.Sound (now : ℚ) : Task → Prop
  | .sent command => command.Sound now
  | .read _ | .returned _ => True

/-- **The invariant of a run.** What is stored is what was last written. -/
structure State.Sound (s : State) : Prop where
  tasks : ∀ t ∈ s.tasks, t.Sound s.now
  owed : ∀ entry ∈ s.entry, s.owed = some entry.text
  covers : ∀ entry ∈ s.entry, Covers entry.ttlEnd entry.text.expiresAt

/-- A time to live that is counted from later ends later. -/
theorem PxCovers.mono {now later : ℚ} (h : now ≤ later) {px : Option ℤ} {expiresAt : Option Seconds}
    (hpx : PxCovers now px expiresAt) : PxCovers later px expiresAt := by
  intro t ht
  obtain ⟨ms, hms, rfl⟩ := Option.map_eq_some_iff.1 ht
  obtain ⟨e, he, hle⟩ := hpx _ (Option.map_eq_some_iff.2 ⟨ms, hms, rfl⟩)
  exact ⟨e, he, hle.trans (by linarith)⟩

theorem Task.Sound.mono {now later : ℚ} (h : now ≤ later) {t : Task} (ht : t.Sound now) :
    t.Sound later := by
  cases t with
  | read text => trivial
  | returned result => trivial
  | sent command =>
    cases command with
    | set text px => exact PxCovers.mono h ht
    | setNx text px => exact PxCovers.mono h ht
    | compareAndSet expected next px time => exact ⟨PxCovers.mono h ht.1, ht.2.trans h⟩
    | setExpired => trivial
    | discard => trivial

/-- **`_ttl_ms` rounds up.** -/
theorem State.pxCovers_ttlMs (s : State) (expiresAt : Option Seconds) :
    PxCovers s.now (s.ttlMs expiresAt) expiresAt := by
  intro t ht
  obtain ⟨ms, hms, rfl⟩ := Option.map_eq_some_iff.1 ht
  obtain ⟨e, he, rfl⟩ := Option.map_eq_some_iff.1 hms
  refine ⟨e, he, ?_⟩
  have hceil : (e.time - s.now) * 1000 ≤ (⌈(e.time - s.now) * 1000⌉ : ℤ) := Int.le_ceil _
  linarith

/-! ## What is stored and what is read -/

namespace State

variable {s : State}

/-- **Redis has what has not expired.** -/
theorem current_eq {entry : Entry} (h : s.entry = some entry)
    (hcovers : Covers entry.ttlEnd entry.text.expiresAt)
    (hlive : entry.text.expired s.now = false) : s.current = some entry.text := by
  have hend : entry.ttlEnd.any (fun t => t ≤ s.now) = false := by
    cases hend : entry.ttlEnd with
    | none => rfl
    | some t =>
      obtain ⟨e, he, hle⟩ := hcovers t hend
      have hlt : ¬ e.time ≤ s.now := by
        intro hle'
        unfold StoredValue.expired at hlive
        rw [Option.mem_def.1 he] at hlive
        exact absurd (decide_eq_true hle')
          (by rw [show decide (e.time ≤ s.now) = false from hlive]; exact Bool.false_ne_true)
      exact decide_eq_false (fun hle' => hlt (hle.trans hle'))
  unfold current
  rw [h, Option.filter_some, hend]
  rfl

theorem exists_entry_of_current {text : StoredValue} (h : s.current = some text) :
    ∃ entry, s.entry = some entry ∧ entry.text = text := by
  unfold current at h
  obtain ⟨entry, hentry, htext⟩ := Option.map_eq_some_iff.1 h
  exact ⟨entry, (Option.filter_eq_some_iff.1 hentry).1, htext⟩

/-- **What is owed is read if it is there**, and only then. -/
theorem Sound.kept_iff_entry (h : s.Sound) : s.Kept ↔
    ∀ v ∈ s.owed, v.expired s.now = false → ∃ entry, s.entry = some entry := by
  constructor
  · intro hkept v hv hlive
    have hread := hkept v hv hlive
    unfold readable at hread
    obtain ⟨text, htext, _⟩ := Option.map_eq_some_iff.1 hread
    obtain ⟨entry, hentry, _⟩ := exists_entry_of_current (Option.filter_eq_some_iff.1 htext).1
    exact ⟨entry, hentry⟩
  · intro hentry v hv hlive
    obtain ⟨entry, he⟩ := hentry v hv hlive
    have htext : entry.text = v := by
      have howed := h.owed entry he
      rw [Option.mem_def.1 hv] at howed
      exact (Option.some.inj howed).symm
    unfold readable
    rw [current_eq he (h.covers entry he) (by rw [htext]; exact hlive), htext, Option.filter_some,
      hlive]
    rfl

/-- A value that is owed and not read is not there. -/
theorem Sound.readable_eq_none_iff (h : s.Sound) : s.readable = none ↔
    ∀ entry ∈ s.entry, entry.text.expired s.now = true := by
  constructor
  · intro hnone entry hentry
    by_contra hlive
    have hlive' : entry.text.expired s.now = false := Bool.eq_false_iff.2 hlive
    unfold readable at hnone
    rw [current_eq hentry (h.covers entry hentry) hlive', Option.filter_some, hlive'] at hnone
    cases hnone
  · intro hexpired
    unfold readable
    cases hcurrent : s.current with
    | none => rfl
    | some text =>
      obtain ⟨entry, hentry, rfl⟩ := exists_entry_of_current hcurrent
      rw [Option.filter_some, hexpired entry hentry]
      rfl

/-! ## One step -/

/-- An operation starts with a sound command. -/
theorem Sound.start (h : s.Sound) {t : Task} (ht : t.Sound s.now) : (s.start t).Sound := by
  refine ⟨fun u hu => ?_, h.owed, h.covers⟩
  rcases List.mem_append.1 hu with hu | hu
  · exact h.tasks u hu
  · exact List.mem_singleton.1 hu ▸ ht

theorem Sound.setTask (h : s.Sound) (i : ℕ) {t : Task} (ht : t.Sound s.now) :
    (s.setTask i t).Sound := by
  refine ⟨fun u hu => ?_, h.owed, h.covers⟩
  rcases List.mem_or_eq_of_mem_set hu with hu | rfl
  · exact h.tasks u hu
  · exact ht

/-- **A value is written**, with a time to live that covers it. -/
theorem Sound.put (h : s.Sound) {text : StoredValue} {px : Option ℤ}
    (hpx : PxCovers s.now px text.expiresAt) : (s.put text px).Sound := by
  refine ⟨h.tasks, ?_, ?_⟩
  · rintro entry ⟨⟩
    rfl
  · rintro entry ⟨⟩
    exact hpx

/-- Where nothing is stored there is nothing to cover. -/
theorem sound_of_entry_eq_none (htasks : ∀ t ∈ s.tasks, t.Sound s.now) (hentry : s.entry = none) :
    s.Sound := by
  refine ⟨htasks, fun entry hmem => ?_, fun entry hmem => ?_⟩
  all_goals
    rw [hentry] at hmem
    exact absurd hmem (Option.not_mem_none entry)

theorem Sound.drop (h : s.Sound) : s.drop.Sound := sound_of_entry_eq_none h.tasks rfl

theorem Sound.remove (h : s.Sound) : s.remove.Sound := sound_of_entry_eq_none h.tasks rfl

theorem Sound.clock (h : s.Sound) {now : ℚ} (hnow : s.now ≤ now) :
    State.Sound { s with now := now } :=
  ⟨fun t ht => (h.tasks t ht).mono hnow, h.owed, h.covers⟩

/-- **Time takes nothing away** that has not expired. -/
theorem Kept.clock (hs : s.Sound) (h : s.Kept) {now : ℚ} (hnow : s.now ≤ now) :
    State.Kept { s with now := now } := by
  refine (hs.clock hnow).kept_iff_entry.2 (fun v hv hlive => hs.kept_iff_entry.1 h v hv ?_)
  unfold StoredValue.expired at hlive ⊢
  cases hv' : v.expiresAt with
  | none => rfl
  | some e =>
    rw [hv'] at hlive
    exact decide_eq_false (fun hle => absurd (hle.trans hnow) (of_decide_eq_false hlive))

/-- **A write keeps what it writes.** -/
theorem Sound.kept_put (h : s.Sound) {text : StoredValue} {px : Option ℤ}
    (hpx : PxCovers s.now px text.expiresAt) : (s.put text px).Kept :=
  (h.put hpx).kept_iff_entry.2 (fun _ _ _ => ⟨_, rfl⟩)

/-- What is removed on purpose is not owed. -/
theorem kept_remove : s.remove.Kept := fun _ hmem => absurd hmem (Option.not_mem_none _)

/-- **A deletion that is not meant for what is there** is harmless when there is nothing
left to read, and only then. -/
theorem Sound.kept_drop_iff (h : s.Sound) (hkept : s.Kept) :
    s.drop.Kept ↔ s.readable = none := by
  constructor
  · intro hdrop
    refine h.readable_eq_none_iff.2 (fun entry hentry => ?_)
    by_contra hlive
    obtain ⟨_, hnone⟩ := h.drop.kept_iff_entry.1 hdrop entry.text (h.owed entry hentry)
      (Bool.eq_false_iff.2 hlive)
    cases hnone
  · intro hnone v hv hlive
    have hread := hkept v hv hlive
    rw [hnone] at hread
    cases hread

/-- An operation that starts changes nothing under the key. -/
theorem set_eq_start (s : State) (value : Json) (expiresAt : Option Seconds) :
    ∃ t, s.set value expiresAt = s.start t ∧ t.Sound s.now := by
  have hpx := s.pxCovers_ttlMs expiresAt
  unfold State.set
  cases hms : s.ttlMs expiresAt with
  | none => exact ⟨_, rfl, nofun⟩
  | some ms =>
    rw [hms] at hpx
    dsimp only
    split
    next => exact ⟨_, rfl, trivial⟩
    next => exact ⟨_, rfl, hpx⟩

theorem setIfAbsent_eq_start (s : State) (value : Json) (expiresAt : Option Seconds) :
    ∃ t, s.setIfAbsent value expiresAt = s.start t ∧ t.Sound s.now := by
  have hpx := s.pxCovers_ttlMs expiresAt
  unfold State.setIfAbsent
  cases hms : s.ttlMs expiresAt with
  | none => exact ⟨_, rfl, nofun⟩
  | some ms =>
    rw [hms] at hpx
    dsimp only
    split
    next => exact ⟨_, rfl, trivial⟩
    next => exact ⟨_, rfl, hpx⟩

theorem compareAndSet_eq_start (s : State) (expected : Option StoredValue) (value : Json)
    (expiresAt : Option Seconds) :
    ∃ t, s.compareAndSet expected value expiresAt = s.start t ∧ t.Sound s.now := by
  have hpx := s.pxCovers_ttlMs expiresAt
  unfold State.compareAndSet
  cases expected with
  | none => exact s.setIfAbsent_eq_start value expiresAt
  | some expected =>
    dsimp only
    cases hms : s.ttlMs expiresAt with
    | none => exact ⟨_, rfl, nofun, le_refl _⟩
    | some ms =>
      rw [hms] at hpx
      dsimp only
      split
      next => exact ⟨_, rfl, trivial⟩
      next => exact ⟨_, rfl, hpx, le_refl _⟩

theorem get_eq_start (s : State) : ∃ t, s.get = s.start t ∧ t.Sound s.now := by
  unfold State.get
  split
  next => exact ⟨_, rfl, trivial⟩
  next => exact ⟨_, rfl, trivial⟩

theorem expired_of_le {text : StoredValue} {time : ℚ} (h : text.expired time = true)
    (htime : time ≤ s.now) : text.expired s.now = true := by
  unfold StoredValue.expired at h ⊢
  cases he : text.expiresAt with
  | none =>
    rw [he] at h
    cases h
  | some e =>
    rw [he] at h
    exact decide_eq_true ((of_decide_eq_true h).trans htime)

/-- **The script** leaves a sound state. -/
theorem Sound.compareAndSetScript (h : s.Sound) (expected : StoredValue) {next : StoredValue}
    {px : Option ℤ} (hpx : PxCovers s.now px next.expiresAt) (time : ℚ) :
    (s.compareAndSetScript expected next px time).2.Sound
      ∧ (s.compareAndSetScript expected next px time).2.now = s.now := by
  unfold State.compareAndSetScript
  split
  next => exact ⟨h, rfl⟩
  next =>
    split
    next => exact ⟨h.drop, rfl⟩
    next =>
      split
      next => exact ⟨h.put hpx, rfl⟩
      next => exact ⟨h, rfl⟩

/-- **The script** deletes only what has expired. -/
theorem Sound.kept_compareAndSetScript (h : s.Sound) (hkept : s.Kept) (expected : StoredValue)
    {next : StoredValue} {px : Option ℤ} {time : ℚ} (hpx : PxCovers s.now px next.expiresAt)
    (htime : time ≤ s.now) : (s.compareAndSetScript expected next px time).2.Kept := by
  unfold State.compareAndSetScript
  split
  next => exact hkept
  next text htext =>
    split
    next hexpired =>
      refine (h.kept_drop_iff hkept).2 ?_
      obtain ⟨entry, hentry, rfl⟩ := exists_entry_of_current htext
      refine h.readable_eq_none_iff.2 (fun entry' hentry' => ?_)
      cases hentry.symm.trans hentry'
      exact expired_of_le (Bool.and_eq_true_iff.1 hexpired).2 htime
    next =>
      split
      next => exact h.kept_put hpx
      next => exact hkept

theorem Sound.execute (h : s.Sound) (i : ℕ) {command : Command} (hc : command.Sound s.now) :
    (s.execute i command).Sound := by
  cases command with
  | set text px => exact (h.put hc).setTask i trivial
  | setNx text px =>
    unfold State.execute
    dsimp only
    split
    next => exact (h.put hc).setTask i trivial
    next => exact h.setTask i trivial
  | compareAndSet expected next px time =>
    exact (h.compareAndSetScript expected hc.1 time).1.setTask i trivial
  | setExpired => exact h.remove.setTask i trivial
  | discard => exact h.drop.setTask i trivial

/-- **A command is executed.** -/
theorem Sound.kept_execute (h : s.Sound) (hkept : s.Kept) (i : ℕ) {command : Command}
    (hc : command.Sound s.now) : (s.execute i command).Kept
      ↔ (command matches .discard) = true → s.readable = none := by
  have hmet : ∀ {p : Prop}, p → (p ↔ (false = true → s.readable = none)) :=
    fun hp => ⟨fun _ => nofun, fun _ => hp⟩
  cases command with
  | set text px => exact hmet (h.kept_put hc)
  | setNx text px =>
    unfold State.execute
    dsimp only
    split
    next => exact hmet (h.kept_put hc)
    next => exact hmet hkept
  | compareAndSet expected next px time =>
    exact hmet (h.kept_compareAndSetScript hkept expected hc.1 hc.2)
  | setExpired => exact hmet kept_remove
  | discard =>
    show s.drop.Kept ↔ (true = true → s.readable = none)
    rw [h.kept_drop_iff hkept]
    exact ⟨fun hnone _ => hnone, fun hnone => hnone rfl⟩

end State

/-- **One event** leaves a sound state. -/
theorem sound_step {s t : State} {e : Event} (h : s.Sound) (hstep : step s e = some t) :
    t.Sound := by
  have hstarted : ∀ {u : State}, (∃ task, u = s.start task ∧ task.Sound s.now) →
      u = t → t.Sound := by
    rintro u ⟨task, rfl, htask⟩ rfl
    exact h.start htask
  cases e with
  | clock now =>
    unfold step at hstep
    dsimp only at hstep
    split at hstep
    next hnow =>
      cases hstep
      exact h.clock hnow
    next => cases hstep
  | get => exact hstarted s.get_eq_start (Option.some.inj hstep)
  | set value expiresAt => exact hstarted (s.set_eq_start value expiresAt) (Option.some.inj hstep)
  | setIfAbsent value expiresAt =>
    exact hstarted (s.setIfAbsent_eq_start value expiresAt) (Option.some.inj hstep)
  | compareAndSet expected value expiresAt =>
    exact hstarted (s.compareAndSet_eq_start expected value expiresAt) (Option.some.inj hstep)
  | delete =>
    cases hstep
    exact h.remove
  | checked i =>
    unfold step at hstep
    dsimp only at hstep
    split at hstep
    next =>
      split at hstep
      all_goals
        cases hstep
        exact h.setTask i trivial
    next => cases hstep
  | executed i =>
    unfold step at hstep
    dsimp only at hstep
    split at hstep
    next command htask =>
      cases hstep
      exact h.execute i (h.tasks _ (List.mem_of_getElem? htask))
    next => cases hstep

/-- **One event**: what is owed stays readable just if no `get` deletes a value that can
still be read. -/
theorem step_iff (s : State) (e : Event) (t : State) (h : s.Sound) (hkept : s.Kept)
    (hstep : step s e = some t) : t.Sound ∧ (t.Kept ↔ Guard s e) := by
  refine ⟨sound_step h hstep, ?_⟩
  have hstarted : ∀ {u : State}, (∃ task, u = s.start task ∧ task.Sound s.now) →
      u = t → (t.Kept ↔ True) := by
    rintro u ⟨task, rfl, htask⟩ rfl
    exact iff_true_intro hkept
  cases e with
  | clock now =>
    unfold step at hstep
    dsimp only at hstep
    split at hstep
    next hnow =>
      cases hstep
      exact iff_true_intro (hkept.clock h hnow)
    next => cases hstep
  | get => exact hstarted s.get_eq_start (Option.some.inj hstep)
  | set value expiresAt => exact hstarted (s.set_eq_start value expiresAt) (Option.some.inj hstep)
  | setIfAbsent value expiresAt =>
    exact hstarted (s.setIfAbsent_eq_start value expiresAt) (Option.some.inj hstep)
  | compareAndSet expected value expiresAt =>
    exact hstarted (s.compareAndSet_eq_start expected value expiresAt) (Option.some.inj hstep)
  | delete =>
    cases hstep
    exact iff_true_intro State.kept_remove
  | checked i =>
    unfold step at hstep
    dsimp only at hstep
    split at hstep
    next =>
      split at hstep
      all_goals
        cases hstep
        exact iff_true_intro hkept
    next => cases hstep
  | executed i =>
    unfold step at hstep
    dsimp only at hstep
    split at hstep
    next command htask =>
      cases hstep
      have hc := h.tasks _ (List.mem_of_getElem? htask)
      refine (h.kept_execute hkept i hc).trans ?_
      unfold Guard
      dsimp only
      rw [htask]
      cases command <;> simp
    next => cases hstep

theorem State.sound_init (now : ℚ) : (State.init now).Sound :=
  sound_of_entry_eq_none (fun _ hmem => absurd hmem List.not_mem_nil) rfl

/-- **When no value is lost**: exactly in the runs in which no `get` deletes a value that
can still be read. -/
theorem kept_iff (now : ℚ) (es : List Event) :
    AllStates step State.Kept (.init now) es
      ↔ AllSteps step (fun s e _ => Guard s e) (.init now) es :=
  allStates_iff_allSteps step_iff (State.sound_init now)
    (fun _ hmem => absurd hmem (Option.not_mem_none _)) es

/-- A `get` reads a value, which expires before it looks at the clock; another value is
written, and the deletion comes after it. -/
def replacedInTime : List Event :=
  [.set (.num 1) (some (.int 1)), .executed 0, .clock (9 / 10), .get, .clock 1, .checked 1,
    .set (.num 2) none, .executed 2, .executed 1]

/-- **A value is lost** that was written while a `get` that had found the one before it
expired was about to delete it. -/
theorem not_kept_replaced : ¬ AllStates step State.Kept (.init 0) replacedInTime := by
  intro h
  have hend : (run step (.init 0) replacedInTime).map
      (fun t => (t.owed.map (fun v => v.expiresAt.isNone), t.entry.isNone))
        = some (some true, true) := by
    decide +kernel
  obtain ⟨t, ht, hpair⟩ := Option.map_eq_some_iff.1 hend
  obtain ⟨howed, hentry⟩ := Prod.mk.inj hpair
  obtain ⟨v, hv, hnever⟩ := Option.map_eq_some_iff.1 howed
  have hlive : v.expired t.now = false := by
    unfold StoredValue.expired
    rw [Option.isNone_iff_eq_none.1 hnever]
    rfl
  have hread := h.last ht v hv hlive
  unfold State.readable State.current at hread
  rw [Option.isNone_iff_eq_none.1 hentry] at hread
  cases hread

end StateBackend

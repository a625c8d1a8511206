import AgoraPlugins.Redis.StateBackend

/-!
# Compare and set

`compare_and_set` hands the value that a `get` returned back to Redis, where a script
compares texts: what is under the key with the text that this value makes. Writing a value
again that has been read gives the text it was read from, so the texts are the same just
if the values are, with the same expiry.

Whether the entry has expired the script asks too, but with the time the client read before
it sent the command. On the way an entry may expire that is replaced nevertheless, as long
as Redis has not dropped it. An entry that is nested too deep for the decoder of the script
is not asked for its expiry at all.
-/

open Machine

namespace StateBackend

namespace StoredValue

/-- **Two texts are the same** just if what is read from them is. -/
theorem sameText_iff (v w : StoredValue) : v.sameText w = true ↔ v.decoded = w.decoded := by
  unfold sameText decoded statePayload
  rw [decide_eq_true_iff, Json.dumps_eq_dumps_iff, StoredValue.mk.injEq]
  simp only [Json.normal, Json.normalMembers, Seconds.normal_orNull, Json.obj.injEq,
    List.cons.injEq, Prod.mk.injEq, true_and, and_true]
  exact and_congr_right_iff.2 (fun _ => ⟨Seconds.orNull_inj, congrArg Seconds.orNull⟩)

/-- **What a `get` returned** stands for itself. -/
theorem decoded_decoded (v : StoredValue) : v.decoded.decoded = v.decoded := by
  unfold decoded
  rw [Json.normal_normal]

end StoredValue

namespace State

variable (s : State)

/-- **The key holds what is expected**, and the script does not find that it has expired at
this time. -/
def Matches (expected : StoredValue) (time : ℚ) : Prop :=
  ∃ text ∈ s.current, (text.decodes && text.expired time) = false
    ∧ text.decoded = expected.decoded

/-- **The key holds an unexpired entry that is the expected one**, at the time of the
step. -/
def Holds (expected : StoredValue) : Prop :=
  ∃ text ∈ s.current, text.expired s.now = false ∧ text.decoded = expected.decoded

/-- **What the script does.** -/
theorem compareAndSetScript_spec (expected next : StoredValue) (px : Option ℤ) {time : ℚ}
    (htime : time ≤ s.now) :
    (s.Matches expected time ∧ s.compareAndSetScript expected next px time = (true, s.put next px))
      ∨ ¬ s.Matches expected time ∧ (s.compareAndSetScript expected next px time).1 = false
        ∧ (s.compareAndSetScript expected next px time).2.tasks = s.tasks
        ∧ ∀ text ∈ s.current, text.expired s.now = false →
          (s.compareAndSetScript expected next px time).2 = s := by
  unfold State.compareAndSetScript Matches
  cases hcurrent : s.current with
  | none =>
    exact .inr ⟨fun ⟨_, hmem, _⟩ => absurd hmem (Option.not_mem_none _), rfl, rfl,
      fun _ hmem => absurd hmem (Option.not_mem_none _)⟩
  | some text =>
    dsimp only
    split
    next hexpired =>
      -- an entry that has expired at this time has expired at the step
      refine .inr ⟨?_, rfl, rfl, ?_⟩
      · rintro ⟨text', ⟨⟩, hlive, _⟩
        rw [hexpired] at hlive
        cases hlive
      · rintro text' ⟨⟩ hlive
        rw [expired_of_le (Bool.and_eq_true_iff.1 hexpired).2 htime] at hlive
        cases hlive
    next hlive =>
      split
      next hsame =>
        exact .inl ⟨⟨text, rfl, Bool.eq_false_iff.2 hlive, (text.sameText_iff expected).1 hsame⟩,
          rfl⟩
      next hsame =>
        refine .inr ⟨?_, rfl, rfl, fun _ _ _ => rfl⟩
        rintro ⟨text', ⟨⟩, _, heq⟩
        exact hsame ((text.sameText_iff expected).2 heq)

end State

/-- **The law of compare-and-set.** A call whose own expiry has passed fails at once. Any
other sends its command with the time it read; when that is executed it succeeds exactly if
the key still holds what is expected, not expired at that time, and then writes the next
value. If it fails, an entry that has not expired stays as it is. -/
def Compares (s : State) : Event → State → Prop
  | .compareAndSet (some expected) value expiresAt, t =>
    t = s.start (if ∃ e ∈ expiresAt, e.time ≤ s.now then .returned (.flag false)
      else .sent (.compareAndSet expected ⟨value, expiresAt⟩ (s.ttlMs expiresAt) s.now))
  | .executed i, t => ∀ expected next px time,
    s.tasks[i]? = some (.sent (.compareAndSet expected next px time)) → time ≤ s.now
      ∧ ((s.Matches expected time ∧ t = (s.put next px).setTask i (.returned (.flag true)))
        ∨ (¬ s.Matches expected time ∧ t.tasks = s.tasks.set i (.returned (.flag false))
          ∧ ∀ text ∈ s.current, text.expired s.now = false → t.entry = s.entry))
  | _, _ => True

theorem ttlMs_nonpos_iff (s : State) (expiresAt : Option Seconds) :
    (∃ e ∈ expiresAt, e.time ≤ s.now) ↔ ∃ ms ∈ s.ttlMs expiresAt, ms ≤ 0 := by
  unfold State.ttlMs
  cases expiresAt with
  | none => simp
  | some e =>
    have hceil : ⌈(e.time - s.now) * 1000⌉ ≤ 0 ↔ e.time ≤ s.now := by
      rw [Int.ceil_le, Int.cast_zero]
      constructor <;> intro h <;> linarith
    simp [hceil]

theorem compareAndSet_spec (s : State) (expected : StoredValue) (value : Json)
    (expiresAt : Option Seconds) :
    s.compareAndSet (some expected) value expiresAt
      = s.start (if ∃ e ∈ expiresAt, e.time ≤ s.now then .returned (.flag false)
        else .sent (.compareAndSet expected ⟨value, expiresAt⟩ (s.ttlMs expiresAt) s.now)) := by
  simp only [ttlMs_nonpos_iff]
  unfold State.compareAndSet
  cases s.ttlMs expiresAt with
  | none => rw [if_neg (by simp)]
  | some ms =>
    dsimp only
    split
    next hms => rw [if_pos ⟨ms, rfl, hms⟩]
    next hms => rw [if_neg (by simpa using hms)]

/-- What the command of a `compare_and_set` expects. -/
def Task.expected : Task → Option StoredValue
  | .sent (.compareAndSet expected _ _ _) => some expected
  | _ => none

/-- The entry under the key has expired. -/
def State.stale (s : State) : Bool := s.current.all (fun text => text.expired s.now)

/-- The operation has returned `True`. -/
def State.succeeded (s : State) (i : ℕ) : Bool :=
  match s.tasks[i]? with
  | some (.returned (.flag b)) => b
  | _ => false

theorem State.not_holds_of_stale {s : State} (h : s.stale = true) (expected : StoredValue) :
    ¬ s.Holds expected := by
  rintro ⟨text, htext, hlive, _⟩
  unfold State.stale at h
  rw [Option.mem_def.1 htext] at h
  rw [show text.expired s.now = true from h] at hlive
  cases hlive

/-- A value is written half a second after its time to live was computed. What a `get`
returned of it is handed to a `compare_and_set`, whose command comes to Redis when the value
has expired and Redis still has it. -/
def expiredOnTheWay : List Event :=
  [.set (.num 1) (some (.int 1)), .clock (1 / 2), .executed 0, .get, .checked 1,
    .compareAndSet (some ⟨.num 1, some (.int 1)⟩) (.num 2) none, .clock (5 / 4)]

end StateBackend

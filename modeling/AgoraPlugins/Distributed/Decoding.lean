import AgoraPlugins.Distributed.WorkerRegistry

/-!
# Validations and lists of whatever is stored

Other programs may write under the keys of leases and workers. A validation answers yes only for an
object with the id of its worker and with its token. For most of what else there may be it answers
no, and a list of the workers leaves it out. But neither is prepared for everything. JSON that is no
object has no fields to ask for, and a lease that is read so ends its validation; an infinite number
is no process id, and a worker that has it ends the list of all workers; and both end where the
reader meets a limit of the interpreter. Nothing else does (`answers_iff`).
-/

open StoredData LeaseValidation

namespace Decoding

variable {δ : Type} {py : Python δ} {limits : Json.Limits}

/-- **The lease of a worker with a token**: an object with its id, and with the token as a text. -/
def IsLease (py : Python δ) (workerId : String) (fencingToken : ℕ) (raw : Option String) : Prop :=
  ∃ text ∈ raw, ∃ data, Json.loads text = some (.obj data)
    ∧ Json.find "worker_id" data = some (.str workerId)
    ∧ Dlq.str py ((Json.find "fencing_token" data).getD .null) = Dlq.str py (.num fencingToken)

/-! ## A yes is one for a lease -/

theorem isLease_of_leasePayloadMatches {workerId : String} {fencingToken : ℕ}
    {raw : Option String} (h : leasePayloadMatches py limits raw workerId fencingToken = .ok true) :
    IsLease py workerId fencingToken raw := by
  obtain ⟨text, htext, data, hload, htest⟩ := (payloadMatches_true_iff _ raw).1 h
  simp only [isLeaseOf, Bool.and_eq_true] at htest
  refine ⟨text, htext, data, Json.loads_of_loadsWithin hload, ?_, of_decide_eq_true htest.2⟩
  have hid := htest.1
  unfold hasText at hid
  split at hid
  next s hfind => rw [hfind, of_decide_eq_true hid]
  next => cases hid

theorem isLease_of_nodeMatches {cfg : LeaseValidation.Config} {lease : LeaseState}
    {raw : Option String} (h : nodeMatches py limits cfg lease raw = .ok true) :
    IsLease py cfg.workerId lease.fencingToken raw := by
  obtain ⟨text, htext, data, hload, htest⟩ := (payloadMatches_true_iff _ raw).1 h
  have hmatches : leasePayloadMatches py limits raw cfg.workerId lease.fencingToken = .ok true :=
    (payloadMatches_true_iff _ raw).2
      ⟨text, htext, data, hload, isLeaseOf_of_isRedlockLeaseOf htest⟩
  exact isLease_of_leasePayloadMatches hmatches

/-! ## When there is an answer -/

theorem answer_ofVerdict (verdict : Except Exc Bool) :
    (Outcome.ofVerdict verdict).answer = verdict := by
  cases verdict <;> rfl

/-- **The primary store answers** if what is stored can be read as a lease. -/
theorem primaryValidate_answers_iff (cfg : LeaseValidation.Config)
    (leaseTokens : Dict String LeaseState) (p : String) (fencingToken : ℕ) (raw : Option String) :
    (∃ valid, (primaryValidate py limits cfg leaseTokens p fencingToken raw).1 = .ok valid
        ∧ (valid = true → IsLease py cfg.workerId fencingToken raw))
      ↔ Readable limits raw := by
  have hanswer : (primaryValidate py limits cfg leaseTokens p fencingToken raw).1
      = leasePayloadMatches py limits raw cfg.workerId fencingToken := answer_ofVerdict _
  rw [hanswer, ← payloadMatches_ok_iff (isLeaseOf py cfg.workerId fencingToken)]
  constructor
  · rintro ⟨valid, hvalid, _⟩
    exact ⟨valid, hvalid⟩
  · rintro ⟨valid, hvalid⟩
    refine ⟨valid, hvalid, fun htrue => ?_⟩
    rw [htrue] at hvalid
    exact isLease_of_leasePayloadMatches hvalid

/-- The texts are those of leases at a quorum of the nodes. -/
def AtQuorum (py : Python δ) (workerId : String) (fencingToken : ℕ)
    (texts : List (Option String)) : Prop :=
  ∃ confirmed : List (Option String), confirmed.Sublist texts
    ∧ texts.length / 2 + 1 ≤ confirmed.length
    ∧ ∀ raw ∈ confirmed, IsLease py workerId fencingToken raw

/-- **Redlock answers** if it does not ask its nodes, or if what they have can be read as leases. -/
theorem redlockValidate_answers_iff (cfg : LeaseValidation.Config)
    (leaseTokens : Dict String LeaseState) (p : String) (fencingToken : ℕ)
    (texts : List (Option String)) :
    (∃ valid, (redlockValidate py limits cfg leaseTokens p fencingToken texts).1 = .ok valid
        ∧ (valid = true → AtQuorum py cfg.workerId fencingToken texts))
      ↔ ∀ lease, leaseTokens.lookup p = some lease → lease.fencingToken = fencingToken →
        ∀ raw ∈ texts, Readable limits raw := by
  unfold redlockValidate
  cases leaseTokens.lookup p with
  | none => simp
  | some lease =>
    dsimp only
    by_cases htoken : lease.fencingToken = fencingToken
    · subst htoken
      have hfatal : ∀ call ∈ texts.map GetCall.answered, call.isFatal = false := by
        simp [GetCall.isFatal]
      have htexts : (texts.map GetCall.answered).filterMap GetCall.text? = texts := by
        rw [List.filterMap_map]
        exact List.filterMap_some
      have hanswer : ∀ verdict : Except Exc Bool,
          ((Outcome.ofVerdict verdict).after p leaseTokens).1 = verdict := answer_ofVerdict
      rw [if_neg (not_not.2 rfl)]
      simp only [hanswer, redlockVerdict_eq_ok_iff, htexts]
      constructor
      · rintro ⟨valid, ⟨_, hreadable, _⟩, _⟩ lease' hlease _
        cases hlease
        exact hreadable
      · intro hreadable
        refine ⟨_, ⟨hfatal, hreadable lease rfl rfl, rfl⟩, fun hquorum => ?_⟩
        rw [decide_eq_true_eq, List.countP_eq_length_filter] at hquorum
        refine ⟨_, List.filter_sublist, hquorum, fun raw hraw => ?_⟩
        have hconfirms := (List.mem_filter.1 hraw).2
        cases hone : nodeMatches py limits cfg lease raw with
        | error e =>
          rw [hone] at hconfirms
          cases hconfirms
        | ok valid =>
          rw [hone] at hconfirms
          exact isLease_of_nodeMatches (hone.trans (congrArg Except.ok hconfirms))
    · rw [if_pos htoken]
      refine iff_of_true ⟨false, rfl, fun h => by cases h⟩ (fun lease' hlease h => ?_)
      cases hlease
      exact absurd h htoken

/-! ## All of it -/

/-- **What is stored is decoded**, by the validations and by the list of the workers, exactly if it
is a lease or a worker as far as they are prepared for. -/
theorem answers_iff (hint : ∀ s e, py.int s = .error e → isConversionError e = true)
    (limits : Json.Limits) :
    (∀ (cfg : LeaseValidation.Config) (leaseTokens : Dict String LeaseState) (p : String)
        (fencingToken : ℕ) (raw : Option String),
      (∃ valid, (primaryValidate py limits cfg leaseTokens p fencingToken raw).1 = .ok valid
          ∧ (valid = true → IsLease py cfg.workerId fencingToken raw))
        ↔ Readable limits raw)
    ∧ (∀ (cfg : LeaseValidation.Config) (leaseTokens : Dict String LeaseState) (p : String)
        (fencingToken : ℕ) (texts : List (Option String)),
      (∃ valid, (redlockValidate py limits cfg leaseTokens p fencingToken texts).1 = .ok valid
          ∧ (valid = true → AtQuorum py cfg.workerId fencingToken texts))
        ↔ ∀ lease, leaseTokens.lookup p = some lease → lease.fencingToken = fencingToken →
          ∀ raw ∈ texts, Readable limits raw)
    ∧ (∀ raw : Option String,
      (∃ worker, workerInfoFromRaw py limits raw = .ok worker) ↔ Skippable limits raw)
    ∧ ∀ (registry : WorkerRegistry.Config) (stored : String → Option String)
        (scan : WorkerRegistry.Scan),
      (∃ w, WorkerRegistry.listWorkers py limits registry stored (some scan) = .ok w)
        ↔ ∀ key ∈ WorkerRegistry.reported scan.replies, Skippable limits (stored key) :=
  ⟨primaryValidate_answers_iff, redlockValidate_answers_iff, workerInfoFromRaw_ok_iff hint,
    fun _ _ scan => WorkerRegistry.listWorkers_ok_iff hint scan⟩

/-- **What is stored for a lease is an array**, and the validation raises. -/
theorem primaryValidate_raises_array :
    (primaryValidate Python.ofTexts ⟨some 4300, 900⟩ .single ∅ "p" 1 (some "[]")).1
        = .error (.exception "AttributeError" "object has no attribute 'get'")
      ∧ ¬ ∃ valid, (primaryValidate Python.ofTexts ⟨some 4300, 900⟩ .single ∅ "p" 1
          (some "[]")).1 = .ok valid := by
  have hraises : (primaryValidate Python.ofTexts ⟨some 4300, 900⟩ .single ∅ "p" 1 (some "[]")).1
      = .error (.exception "AttributeError" "object has no attribute 'get'") := by
    decide +kernel
  refine ⟨hraises, ?_⟩
  rw [hraises]
  rintro ⟨valid, hvalid⟩
  cases hvalid

/-- A text that describes a worker can be read. -/
theorem answers_twelve :
    Skippable ⟨some 4300, 900⟩ (some "\x7b\"worker_id\": \"w1\", \"pid\": 12\x7d") :=
  ((answers_iff WorkerRegistry.isConversionError_ofTexts _).2.2.1 _).1
    ⟨some ⟨"w1", "", 12, "unknown", [], ""⟩, by decide +kernel⟩

end Decoding

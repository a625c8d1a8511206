import AgoraPlugins.Dict

/-!
# Fencing keys

The fencing tokens of a pipeline come from a counter under a key of its own, which every
acquisition increments. Without `fencing_key_ttl_seconds` the key has no time to live;
with it the key gets one with each acquisition, and a counter that has expired begins at
one again.

The counters are given here with the tokens issued from them so far, in the order of the
increments, and with the law that between two expiries of its key the tokens of a
pipeline grow.
-/

/-- A counter, and whether its key has a time to live. -/
structure Fence where
  count : ℕ
  expires : Bool

/-- **A token that was issued**: what the counter of the pipeline came to, after its key had
expired so many times. -/
structure Issue where
  pipelineId : String
  epoch : ℕ
  count : ℕ
  deriving DecidableEq

/-- A token is below another one if they are of one pipeline and its key has not expired
between them. -/
def Issue.Below (x y : Issue) : Prop :=
  x.pipelineId = y.pipelineId → x.epoch = y.epoch → x.count < y.count

instance (x y : Issue) : Decidable (x.Below y) := inferInstanceAs (Decidable (_ → _ → _))

/-- **The law of the fencing keys.** -/
structure Issued (counters : Dict String Fence) (expiries : List String) (issued : List Issue) :
    Prop where
  ordered : issued.Pairwise Issue.Below
  epoch : ∀ x ∈ issued, x.epoch ≤ expiries.count x.pipelineId
  bounded : ∀ x ∈ issued, x.epoch = expiries.count x.pipelineId →
    ∃ fence, counters.lookup x.pipelineId = some fence ∧ x.count ≤ fence.count

/-- **The fencing keys of the pipelines**, with what was issued from them. -/
structure FencingKeys where
  counters : Dict String Fence
  /-- the pipelines whose key has expired -/
  expiries : List String
  issued : List Issue
  law : Issued counters expiries issued

namespace FencingKeys

def empty : FencingKeys where
  counters := ∅
  expiries := []
  issued := []
  law := ⟨.nil, nofun, nofun⟩

variable (keys : FencingKeys)

/-- What `INCR` makes of a key. -/
def next (pipelineId : String) : Fence :=
  match keys.counters.lookup pipelineId with
  | none => ⟨1, false⟩
  | some fence => ⟨fence.count + 1, fence.expires⟩

/-- How often the key has expired. -/
def epoch (pipelineId : String) : ℕ := keys.expiries.count pipelineId

/-- The token that `INCR` issues. -/
def issue (pipelineId : String) : Issue :=
  ⟨pipelineId, keys.epoch pipelineId, (keys.next pipelineId).count⟩

variable {keys} in
theorem below_issue {x : Issue} (hx : x ∈ keys.issued) (pipelineId : String) :
    x.Below (keys.issue pipelineId) := by
  intro hp hepoch
  obtain rfl : x.pipelineId = pipelineId := hp
  obtain ⟨fence, hfence, hle⟩ := keys.law.bounded x hx hepoch
  show x.count < (keys.next x.pipelineId).count
  unfold next
  rw [hfence]
  exact Nat.lt_succ_of_le hle

/-- `INCR`. -/
def incr (pipelineId : String) : FencingKeys where
  counters := keys.counters.insert pipelineId (keys.next pipelineId)
  expiries := keys.expiries
  issued := keys.issued ++ [keys.issue pipelineId]
  law := by
    refine ⟨?_, fun x hx => ?_, fun x hx hepoch => ?_⟩
    · rw [List.pairwise_append]
      refine ⟨keys.law.ordered, List.pairwise_singleton _ _, fun x hx y hy => ?_⟩
      rw [List.mem_singleton.1 hy]
      exact below_issue hx pipelineId
    · rcases List.mem_append.1 hx with hx | hx
      · exact keys.law.epoch x hx
      · rw [List.mem_singleton.1 hx]
        exact le_rfl
    · rcases List.mem_append.1 hx with hx | hx
      · by_cases hp : x.pipelineId = pipelineId
        · have hlt := below_issue hx pipelineId hp (by rw [hepoch, hp]; rfl)
          rw [hp]
          exact ⟨_, AList.lookup_insert _, hlt.le⟩
        · obtain ⟨fence, hfence, hle⟩ := keys.law.bounded x hx hepoch
          exact ⟨fence, (AList.lookup_insert_ne hp).trans hfence, hle⟩
      · rw [List.mem_singleton.1 hx]
        exact ⟨_, AList.lookup_insert _, le_rfl⟩

/-- `EXPIRE`. -/
def limit (pipelineId : String) : FencingKeys :=
  match h : keys.counters.lookup pipelineId with
  | none => keys
  | some fence =>
    { counters := keys.counters.insert pipelineId { fence with expires := true }
      expiries := keys.expiries
      issued := keys.issued
      law := by
        refine ⟨keys.law.ordered, keys.law.epoch, fun x hx hepoch => ?_⟩
        obtain ⟨other, hother, hle⟩ := keys.law.bounded x hx hepoch
        by_cases hp : x.pipelineId = pipelineId
        · rw [hp, h] at hother
          cases hother
          rw [hp]
          exact ⟨_, AList.lookup_insert _, hle⟩
        · exact ⟨other, (AList.lookup_insert_ne hp).trans hother, hle⟩ }

/-- The time to live of a key runs out, if it has one. -/
def lapse (pipelineId : String) : Option FencingKeys :=
  if (keys.counters.lookup pipelineId).any Fence.expires then some
    { counters := keys.counters.erase pipelineId
      expiries := keys.expiries ++ [pipelineId]
      issued := keys.issued
      law := by
        refine ⟨keys.law.ordered, fun x hx => ?_, fun x hx hepoch => ?_⟩
        · rw [List.count_append]
          exact (keys.law.epoch x hx).trans (Nat.le_add_right _ _)
        · have hle := keys.law.epoch x hx
          rw [List.count_append] at hepoch
          by_cases hp : x.pipelineId = pipelineId
          · rw [hp, List.count_singleton_self] at hepoch
            rw [hp] at hle
            omega
          · have hzero : List.count x.pipelineId [pipelineId] = 0 :=
              List.count_eq_zero.2 (fun hmem => hp (List.mem_singleton.1 hmem))
            rw [hzero, Nat.add_zero] at hepoch
            obtain ⟨fence, hfence, hcount⟩ := keys.law.bounded x hx hepoch
            exact ⟨fence, (AList.lookup_erase_ne hp).trans hfence, hcount⟩ }
  else none

theorem issued_limit (pipelineId : String) : (keys.limit pipelineId).issued = keys.issued := by
  unfold limit
  split
  next => rfl
  next => rfl

variable {keys}

theorem issued_lapse {next : FencingKeys} {pipelineId : String}
    (h : keys.lapse pipelineId = some next) : next.issued = keys.issued := by
  unfold lapse at h
  split at h
  next =>
    cases h
    rfl
  next => cases h

/-- **Of two tokens the one issued later is larger**, if the key has not expired between
them. -/
theorem lt_of_lt {i j : ℕ} {x y : Issue} (hx : keys.issued[i]? = some x)
    (hy : keys.issued[j]? = some y) (hij : i < j) (hp : x.pipelineId = y.pipelineId)
    (hepoch : x.epoch = y.epoch) : x.count < y.count := by
  obtain ⟨hi, rfl⟩ := List.getElem?_eq_some_iff.1 hx
  obtain ⟨hj, rfl⟩ := List.getElem?_eq_some_iff.1 hy
  exact List.pairwise_iff_getElem.1 keys.law.ordered i j hi hj hij hp hepoch

/-! ## Keys without a time to live -/

/-- **No key has a time to live**, and none has expired. -/
structure Permanent (keys : FencingKeys) : Prop where
  expires : ∀ p fence, keys.counters.lookup p = some fence → fence.expires = false
  expiries : keys.expiries = []

theorem permanent_empty : empty.Permanent := ⟨nofun, rfl⟩

theorem Permanent.incr (h : keys.Permanent) (pipelineId : String) :
    (keys.incr pipelineId).Permanent := by
  refine ⟨fun p fence hp => ?_, h.expiries⟩
  by_cases hpp : p = pipelineId
  · subst hpp
    have hnext : some (keys.next p) = some fence := (AList.lookup_insert _).symm.trans hp
    cases hnext
    unfold next
    split
    next => rfl
    next old hold => exact h.expires p old hold
  · exact h.expires p fence ((AList.lookup_insert_ne hpp).symm.trans hp)

theorem Permanent.lapse_eq_none (h : keys.Permanent) (pipelineId : String) :
    keys.lapse pipelineId = none := by
  unfold lapse
  rw [if_neg]
  intro hany
  obtain ⟨fence, hfence, hexpires⟩ := (Option.any_eq_true _ _).1 hany
  rw [h.expires pipelineId fence hfence] at hexpires
  cases hexpires

/-- All tokens issued are of one epoch. -/
theorem Permanent.epoch_eq (h : keys.Permanent) {x : Issue} (hx : x ∈ keys.issued) :
    x.epoch = 0 := by
  have hle := keys.law.epoch x hx
  rw [h.expiries] at hle
  exact Nat.le_zero.1 hle

/-- **Tokens grow in the order of the increments**, while the key has not expired, which it never
has without a time to live. -/
def Grows (keys : FencingKeys) (fencingKeyTtl : ℕ) : Prop :=
  keys.issued.Pairwise (fun x y => x.pipelineId = y.pipelineId →
    fencingKeyTtl = 0 ∨ x.epoch = y.epoch → x.count < y.count)

theorem grows {fencingKeyTtl : ℕ} (h : fencingKeyTtl = 0 → keys.Permanent) :
    keys.Grows fencingKeyTtl := by
  refine keys.law.ordered.imp_of_mem (fun hx hy hbelow hp hepoch => hbelow hp ?_)
  rcases hepoch with hzero | hepoch
  · rw [(h hzero).epoch_eq hx, (h hzero).epoch_eq hy]
  · exact hepoch

end FencingKeys

import AgoraPlugins.Redis.DlqSink

/-!
# The indexes of the Redis DLQ

A DLQ is consistent if every hash in it is that of a record that can be read, whose key
is in the list of all records and in the three that its hash names, once in each, and
if the key of no hash is in no list.

The two scripts keep that. A replay keeps it where the hash is there; if the record has
been acknowledged in the meantime, the `HSET` of the replay makes a new hash with
nothing in it but the number of attempts. And a record that is written in clear can be
read back only if its value does not look like an envelope. Those are the only two ways
in which a DLQ becomes inconsistent (`RedisDLQ.consistent_iff`).
-/

open Machine

namespace Dlq

open RedisKeyspace RedisPayloads

/-! ## The commands -/

namespace Store

@[simp] theorem list_hset (s : Store) (key : String) (fields : List (String × String))
    (index : String) : (s.hset key fields).list index = s.list index := rfl

@[simp] theorem list_del (s : Store) (key index : String) :
    (s.del key).list index = s.list index := rfl

theorem list_rpush (s : Store) (i key j : String) :
    (s.rpush i key).list j = if i = j then s.list j ++ [key] else s.list j := by
  unfold rpush
  split
  next h =>
    subst h
    unfold list
    rw [AList.lookup_insert]
    rfl
  next h =>
    unfold list
    rw [AList.lookup_insert_ne (Ne.symm h)]

theorem list_lrem (s : Store) (i key j : String) :
    (s.lrem i key).list j
      = if i = j then (s.list j).filter (fun k => k ≠ key) else s.list j := by
  unfold lrem
  split
  next h =>
    subst h
    unfold list
    rw [AList.lookup_insert]
    rfl
  next h =>
    unfold list
    rw [AList.lookup_insert_ne (Ne.symm h)]

/-- How often a key is in a list. -/
def count (s : Store) (index key : String) : ℕ := (s.list index).count key

theorem hashes_rpushAll (s : Store) (key : String) (indexes : List String) :
    (indexes.foldl (fun s index => s.rpush index key) s).hashes = s.hashes := by
  induction indexes generalizing s with
  | nil => rfl
  | cons i indexes ih => exact ih (s.rpush i key)

theorem hashes_lremAll (s : Store) (key : String) (indexes : List String) :
    (indexes.foldl (fun s index => s.lrem index key) s).hashes = s.hashes := by
  induction indexes generalizing s with
  | nil => rfl
  | cons i indexes ih => exact ih (s.lrem i key)

/-- **Pushing a key** to some lists. -/
theorem count_rpushAll (s : Store) (key : String) (indexes : List String) (j k : String) :
    (indexes.foldl (fun s index => s.rpush index key) s).count j k
      = s.count j k + if k = key then indexes.count j else 0 := by
  induction indexes generalizing s with
  | nil => simp
  | cons i indexes ih =>
    rw [List.foldl_cons, ih]
    unfold count
    rw [list_rpush, List.count_cons]
    by_cases hi : i = j <;> by_cases hk : k = key
    · subst hi hk
      simp
      omega
    · have hk' : key ≠ k := Ne.symm hk
      simp [hi, hk, hk']
    · simp [hi, hk]
    · simp [hi, hk]

/-- **Removing a key** from some lists. -/
theorem count_lremAll (s : Store) (key : String) (indexes : List String) (j k : String) :
    (indexes.foldl (fun s index => s.lrem index key) s).count j k
      = if k = key ∧ j ∈ indexes then 0 else s.count j k := by
  induction indexes generalizing s with
  | nil => simp
  | cons i indexes ih =>
    rw [List.foldl_cons, ih]
    unfold count
    rw [list_lrem]
    by_cases hi : i = j
    · subst hi
      by_cases hk : k = key
      · subst hk
        have hzero : ((s.list i).filter (fun k' => k' ≠ k)).count k = 0 :=
          List.count_eq_zero.2 (by simp)
        rw [if_pos rfl, hzero]
        simp
      · simp [hk, List.count_filter]
    · have hi' : j ≠ i := Ne.symm hi
      simp [hi, hi']

theorem lookup_hset (s : Store) (key k : String) (fields : List (String × String)) :
    (s.hset key fields).hashes.lookup k
      = if k = key then some (((s.hashes.lookup key).getD ∅).update fields)
        else s.hashes.lookup k := by
  unfold hset
  split
  next h => rw [h, AList.lookup_insert]
  next h => exact AList.lookup_insert_ne h

theorem lookup_del (s : Store) (key k : String) :
    (s.del key).hashes.lookup k = if k = key then none else s.hashes.lookup k := by
  unfold del
  split
  next h => rw [h, AList.lookup_erase]
  next h => exact AList.lookup_erase_ne h

/-- The metadata of a key are those of its hash. -/
theorem metadata_congr {s t : Store} {key : String}
    (h : t.hashes.lookup key = s.hashes.lookup key) : t.metadata key = s.metadata key := by
  unfold metadata hget
  rw [h]

theorem metadata_of_none {s : Store} {key : String} (h : s.hashes.lookup key = none) :
    s.metadata key = [none, none, none] := by
  unfold metadata hget
  rw [h]
  rfl

end Store

/-! ## The index keys of a record -/

section Keys

variable (keyPrefix : String)

theorem append_ne_of_toList_ne {a b : String} (h : a.toList ≠ b.toList) :
    keyPrefix ++ a ≠ keyPrefix ++ b := by
  intro heq
  refine h ?_
  have hlist := congrArg String.toList heq
  rw [String.toList_append, String.toList_append] at hlist
  exact List.append_cancel_left hlist

/-- **The four lists of a record are four.** -/
theorem nodup_indexKeys (pipelineId stage : String) :
    (indexKey keyPrefix :: orderedSecondaryIndexKeys keyPrefix pipelineId stage).Nodup := by
  have h1 : indexKey keyPrefix ≠ pipelineIndexKey keyPrefix pipelineId :=
    append_ne_of_toList_ne keyPrefix (by simp)
  have h2 : indexKey keyPrefix ≠ stageIndexKey keyPrefix stage :=
    append_ne_of_toList_ne keyPrefix (by simp)
  have h3 : indexKey keyPrefix ≠ pipelineStageIndexKey keyPrefix pipelineId stage :=
    append_ne_of_toList_ne keyPrefix (by simp)
  have h4 : pipelineIndexKey keyPrefix pipelineId ≠ stageIndexKey keyPrefix stage :=
    append_ne_of_toList_ne keyPrefix (by simp)
  have h5 : pipelineIndexKey keyPrefix pipelineId
      ≠ pipelineStageIndexKey keyPrefix pipelineId stage :=
    append_ne_of_toList_ne keyPrefix (by simp)
  have h6 : stageIndexKey keyPrefix stage ≠ pipelineStageIndexKey keyPrefix pipelineId stage :=
    append_ne_of_toList_ne keyPrefix (by simp)
  unfold orderedSecondaryIndexKeys
  simp [h1, h2, h3, h4, h5, h6]

theorem indexKey_ne_empty {pipelineId stage index : String}
    (h : index ∈ orderedSecondaryIndexKeys keyPrefix pipelineId stage) : index ≠ "" := by
  rintro rfl
  unfold orderedSecondaryIndexKeys pipelineIndexKey stageIndexKey pipelineStageIndexKey at h
  simp at h

end Keys

/-! ## Consistency -/

variable {δ : Type} {py : Python δ} {cfg : RedisDLQ}

/-- A key that is in no list. -/
def Store.Unlisted (s : Store) (key : String) : Prop := ∀ index, s.count index key = 0

/-- A key whose hash names the lists of a pipeline and a stage. -/
def RedisDLQ.Names (cfg : RedisDLQ) (s : Store) (key pipelineId stage : String) : Prop :=
  s.metadata key = (orderedSecondaryIndexKeys cfg.keyPrefix pipelineId stage).map some

variable (py cfg) in
/-- **The DLQ is consistent.** The key of a hash that is there is once in the list of all
records and once in each of the three that the hash names, and the hash can be read; the
key of a hash that is not there is in no list. -/
def RedisDLQ.Consistent (s : Store) : Prop :=
  ∀ key, match s.hashes.lookup key with
    | none => s.Unlisted key
    | some hash => (∃ r : DLQRecord δ, hashToRecord py cfg.payloadPolicy hash = .ok r)
      ∧ ∃ pipelineId stage, cfg.Names s key pipelineId stage
        ∧ ∀ index ∈ indexKey cfg.keyPrefix
            :: orderedSecondaryIndexKeys cfg.keyPrefix pipelineId stage,
          s.count index key = 1

variable (cfg) in
/-- **A key is in no other list** than those its hash names, and in none if it names
none. -/
def RedisDLQ.Indexed (s : Store) : Prop :=
  ∀ key, (∃ pipelineId stage, cfg.Names s key pipelineId stage
      ∧ ∀ index ∉ indexKey cfg.keyPrefix
          :: orderedSecondaryIndexKeys cfg.keyPrefix pipelineId stage,
        s.count index key = 0)
    ∨ s.metadata key = [none, none, none] ∧ s.Unlisted key

variable (py cfg) in
/-- **What keeps a DLQ consistent**: a record that is written in clear does not look like
an envelope, and the hash of a record that is replayed is there. -/
def RedisDLQ.Guard (s : Store) : RedisDLQ.Command δ → Prop
  | .write r _ => (∃ fields, recordToHash py cfg.payloadPolicy r = .ok fields) →
      encrypts cfg.payloadPolicy = true
        ∨ isEnvelope (storedValue py cfg.payloadPolicy r) = false
  | .replay r => ∀ key, existingRecordKey r = .ok key → (s.hashes.lookup key).isSome = true
  | .acknowledge _ => True

namespace RedisDLQ

/-- Where a hash is there, its key is listed as it names. -/
theorem Consistent.of_some {s : Store} (h : cfg.Consistent py s) {key : String} {hash : Hash}
    (hhash : s.hashes.lookup key = some hash) :
    (∃ r : DLQRecord δ, hashToRecord py cfg.payloadPolicy hash = .ok r)
      ∧ ∃ pipelineId stage, cfg.Names s key pipelineId stage
        ∧ ∀ index ∈ indexKey cfg.keyPrefix
            :: orderedSecondaryIndexKeys cfg.keyPrefix pipelineId stage,
          s.count index key = 1 := by
  have hkey := h key
  rw [hhash] at hkey
  exact hkey

theorem Consistent.of_none {s : Store} (h : cfg.Consistent py s) {key : String}
    (hhash : s.hashes.lookup key = none) : s.Unlisted key := by
  have hkey := h key
  rw [hhash] at hkey
  exact hkey

/-- Names are those of one pipeline and stage. -/
theorem Names.keys_eq {s : Store} {key p q st st' : String} (h : cfg.Names s key p st)
    (h' : cfg.Names s key q st') : orderedSecondaryIndexKeys cfg.keyPrefix p st
      = orderedSecondaryIndexKeys cfg.keyPrefix q st' :=
  List.map_injective_iff.2 (Option.some_injective String) (h.symm.trans h')

theorem Names.metadata_ne {s : Store} {key p st : String} (h : cfg.Names s key p st) :
    s.metadata key ≠ [none, none, none] := by
  rw [show s.metadata key = _ from h]
  exact nofun

/-- Together the two say how often a key is in every list. -/
theorem count_eq {s : Store} (h : cfg.Consistent py s) (hi : cfg.Indexed s) {key : String}
    {hash : Hash} (hhash : s.hashes.lookup key = some hash) {p st : String}
    (hnames : cfg.Names s key p st) (index : String) :
    s.count index key = if index ∈ indexKey cfg.keyPrefix
      :: orderedSecondaryIndexKeys cfg.keyPrefix p st then 1 else 0 := by
  obtain ⟨_, q, st', hnames', hone⟩ := h.of_some hhash
  rw [← hnames.keys_eq hnames'] at hone
  split
  next hmem => exact hone index hmem
  next hmem =>
    rcases hi key with ⟨q, st', hnames', hzero⟩ | ⟨hmetadata, _⟩
    · rw [← hnames.keys_eq hnames'] at hzero
      exact hzero index hmem
    · exact absurd hmetadata hnames.metadata_ne

/-- **A step that leaves other keys alone** is right about them if it was. -/
theorem consistent_of_key {s t : Store} (key : String) (h : cfg.Consistent py s)
    (hhashes : ∀ k, k ≠ key → t.hashes.lookup k = s.hashes.lookup k)
    (hcount : ∀ index k, k ≠ key → t.count index k = s.count index k)
    (hkey : match t.hashes.lookup key with
      | none => t.Unlisted key
      | some hash => (∃ r : DLQRecord δ, hashToRecord py cfg.payloadPolicy hash = .ok r)
        ∧ ∃ pipelineId stage, cfg.Names t key pipelineId stage
          ∧ ∀ index ∈ indexKey cfg.keyPrefix
              :: orderedSecondaryIndexKeys cfg.keyPrefix pipelineId stage,
            t.count index key = 1) : cfg.Consistent py t := by
  intro k
  by_cases hk : k = key
  · subst hk
    exact hkey
  · cases hhash : s.hashes.lookup k with
    | none =>
      rw [hhashes k hk, hhash]
      intro index
      rw [hcount index k hk]
      exact h.of_none hhash index
    | some hash =>
      obtain ⟨hread, p, st, hnames, hone⟩ := h.of_some hhash
      rw [hhashes k hk, hhash]
      refine ⟨hread, p, st, ?_, fun index hindex => ?_⟩
      · exact (Store.metadata_congr (hhashes k hk)).trans hnames
      · rw [hcount index k hk]
        exact hone index hindex

theorem indexed_of_key {s t : Store} (key : String) (h : cfg.Indexed s)
    (hhashes : ∀ k, k ≠ key → t.hashes.lookup k = s.hashes.lookup k)
    (hcount : ∀ index k, k ≠ key → t.count index k = s.count index k)
    (hkey : (∃ pipelineId stage, cfg.Names t key pipelineId stage
        ∧ ∀ index ∉ indexKey cfg.keyPrefix
            :: orderedSecondaryIndexKeys cfg.keyPrefix pipelineId stage,
          t.count index key = 0)
      ∨ t.metadata key = [none, none, none] ∧ t.Unlisted key) : cfg.Indexed t := by
  intro k
  by_cases hk : k = key
  · subst hk
    exact hkey
  · have hmetadata := Store.metadata_congr (hhashes k hk)
    refine (h k).imp ?_ ?_
    · rintro ⟨p, st, hnames, hzero⟩
      refine ⟨p, st, hmetadata.trans hnames, fun index hindex => ?_⟩
      rw [hcount index k hk]
      exact hzero index hindex
    · rintro ⟨hnone, hunlisted⟩
      refine ⟨hmetadata.trans hnone, fun index => ?_⟩
      rw [hcount index k hk]
      exact hunlisted index

/-! ## The upsert -/

variable {s : Store} {key p st : String} {fields mapping : List (String × String)}

theorem hashes_upsertScript (s : Store) (key primary : String) (secondary : List String)
    (fields : List (String × String)) :
    (s.upsertScript key primary secondary fields).hashes = (s.hset key fields).hashes := by
  unfold Store.upsertScript
  dsimp only
  split
  · exact Store.hashes_rpushAll _ _ _
  · rw [Store.hashes_rpushAll, Store.hashes_lremAll]

/-- A key that was not there is pushed to its four lists. -/
theorem count_upsertScript_of_none (hhash : s.hashes.lookup key = none) (primary : String)
    (secondary : List String) (index k : String) :
    (s.upsertScript key primary secondary fields).count index k
      = s.count index k + if k = key then (primary :: secondary).count index else 0 := by
  unfold Store.upsertScript
  dsimp only
  rw [if_pos (by rw [hhash]; rfl), Store.count_rpushAll]
  rfl

/-- A key that was there is taken out of the lists it was in and of those it will be in,
and pushed to the latter. -/
theorem count_upsertScript_of_some {hash : Hash} (hhash : s.hashes.lookup key = some hash)
    (hnames : cfg.Names s key p st) (primary : String) (secondary : List String)
    (index k : String) :
    (s.upsertScript key primary secondary fields).count index k
      = (if k = key ∧ index ∈ orderedSecondaryIndexKeys cfg.keyPrefix p st ++ secondary then 0
          else s.count index k) + if k = key then secondary.count index else 0 := by
  have hold : ((s.metadata key).filterMap id).filter (fun index => index ≠ "")
      = orderedSecondaryIndexKeys cfg.keyPrefix p st := by
    rw [show s.metadata key = _ from hnames, List.filterMap_map]
    simp only [Function.id_comp, List.filterMap_some]
    exact List.filter_eq_self.2
      (fun index hindex => decide_eq_true (indexKey_ne_empty cfg.keyPrefix hindex))
  unfold Store.upsertScript
  dsimp only
  rw [if_neg (by rw [hhash]; exact Bool.false_ne_true), hold, Store.count_rpushAll,
    Store.count_lremAll]
  rfl

/-- The fields that say where a record is listed are written with it. -/
theorem names_of_written {t : Store} (hhash : t.hashes.lookup key
      = some (((s.hashes.lookup key).getD ∅).update
        (mapping ++ ("storage_key", key) :: indexMetadata cfg.keyPrefix p st))) :
    cfg.Names t key p st := by
  have hlast : ∀ name ∈ metadataFields, ∃ index, Dict.last name
      (("storage_key", key) :: indexMetadata cfg.keyPrefix p st) = some index
      ∧ t.hget key name = some index := by
    intro name hname
    have hsome : ∃ index, Dict.last name
        (("storage_key", key) :: indexMetadata cfg.keyPrefix p st) = some index := by
      unfold metadataFields at hname
      simp only [List.mem_cons, List.not_mem_nil, or_false] at hname
      rcases hname with rfl | rfl | rfl <;> exact ⟨_, rfl⟩
    obtain ⟨index, hindex⟩ := hsome
    refine ⟨index, hindex, ?_⟩
    unfold Store.hget
    rw [hhash, Option.bind_some, Dict.lookup_update, Dict.last_append, hindex]
    rfl
  obtain ⟨i, hi, hgeti⟩ := hlast "__pipeline_index_key" (by decide)
  obtain ⟨j, hj, hgetj⟩ := hlast "__stage_index_key" (by decide)
  obtain ⟨l, hl, hgetl⟩ := hlast "__pipeline_stage_index_key" (by decide)
  cases hi
  cases hj
  cases hl
  unfold Names Store.metadata metadataFields
  rw [List.map_cons, List.map_cons, List.map_cons, hgeti, hgetj, hgetl]
  rfl

/-- What is written besides has its own fields. -/
theorem lookup_of_written {r : DLQRecord δ}
    (hmapping : recordToHash py cfg.payloadPolicy r = .ok mapping) {hash : Hash}
    (name text : String) (h : Dict.last name mapping = some text) :
    (hash.update (mapping ++ ("storage_key", key) :: indexMetadata cfg.keyPrefix p st)).lookup name
      = some text := by
  have hmem : name ∈ hashFields :=
    mem_hashFields_of_recordToHash hmapping _ (Dict.mem_of_last h)
  have hnone : Dict.last name (("storage_key", key) :: indexMetadata cfg.keyPrefix p st)
      = none := by
    have hdisjoint : ∀ name ∈ hashFields, name ∉ "storage_key" :: metadataFields := by decide
    cases hlast : Dict.last name (("storage_key", key) :: indexMetadata cfg.keyPrefix p st) with
    | none => rfl
    | some w =>
      refine absurd ?_ (hdisjoint name hmem)
      have hw := List.mem_map_of_mem (f := Prod.fst) (Dict.mem_of_last hlast)
      exact hw
  rw [Dict.lookup_update, Dict.last_append, hnone, h]
  rfl

/-- **After an upsert** a key is in the four lists of its record, once in each, and in no
other, whichever it was in before. -/
theorem count_upsertScript (hi : cfg.Indexed s) (hc : cfg.Consistent py s) (key p st : String)
    (fields : List (String × String)) (index k : String) :
    (s.upsertScript key (indexKey cfg.keyPrefix)
        (orderedSecondaryIndexKeys cfg.keyPrefix p st) fields).count index k
      = if k = key then
          if index ∈ indexKey cfg.keyPrefix
            :: orderedSecondaryIndexKeys cfg.keyPrefix p st then 1 else 0
        else s.count index k := by
  have hnodup := nodup_indexKeys cfg.keyPrefix p st
  obtain ⟨hprimary, hsecondary⟩ := List.nodup_cons.1 hnodup
  cases hold : s.hashes.lookup key with
  | none =>
    rw [count_upsertScript_of_none hold]
    split
    next hk =>
      rw [hk, hc.of_none hold index, Nat.zero_add]
      split
      next h => exact List.count_eq_one_of_mem hnodup h
      next h => exact List.count_eq_zero.2 h
    next => rw [Nat.add_zero]
  | some hash =>
    obtain ⟨_, q, st', hnames, _⟩ := hc.of_some hold
    have hprimary' := (List.nodup_cons.1 (nodup_indexKeys cfg.keyPrefix q st')).1
    rw [count_upsertScript_of_some hold hnames]
    by_cases hk : k = key
    · subst hk
      rw [if_pos rfl, if_pos rfl, count_eq hc hi hold hnames]
      by_cases hmem : index ∈ orderedSecondaryIndexKeys cfg.keyPrefix p st
      · rw [if_pos ⟨rfl, List.mem_append_right _ hmem⟩, if_pos (List.mem_cons_of_mem _ hmem),
          List.count_eq_one_of_mem hsecondary hmem]
      · rw [List.count_eq_zero.2 hmem, Nat.add_zero]
        by_cases hindex : index = indexKey cfg.keyPrefix
        · subst hindex
          rw [if_neg (fun h => (List.mem_append.1 h.2).elim hprimary' hprimary),
            if_pos List.mem_cons_self, if_pos List.mem_cons_self]
        · simp [hindex, hmem]
    · rw [if_neg (fun h => hk h.1), if_neg hk, if_neg hk, Nat.add_zero]

/-- **A write** keeps the indexes, and keeps the DLQ consistent just if the record can be
read back. -/
theorem upsert_iff {r : DLQRecord δ} (hi : cfg.Indexed s) (hc : cfg.Consistent py s)
    (hmapping : recordToHash py cfg.payloadPolicy r = .ok mapping) (key : String) :
    let t := s.upsertScript key (indexKey cfg.keyPrefix)
      (orderedSecondaryIndexKeys cfg.keyPrefix r.pipelineId r.stage)
      (mapping ++ ("storage_key", key) :: indexMetadata cfg.keyPrefix r.pipelineId r.stage)
    cfg.Indexed t ∧ (cfg.Consistent py t ↔ encrypts cfg.payloadPolicy = true
      ∨ isEnvelope (storedValue py cfg.payloadPolicy r) = false) := by
  intro t
  have hhash : t.hashes.lookup key = some (((s.hashes.lookup key).getD ∅).update
      (mapping ++ ("storage_key", key) :: indexMetadata cfg.keyPrefix r.pipelineId r.stage)) := by
    rw [hashes_upsertScript, Store.lookup_hset, if_pos rfl]
  have hhashes : ∀ k, k ≠ key → t.hashes.lookup k = s.hashes.lookup k := by
    intro k hk
    rw [hashes_upsertScript, Store.lookup_hset, if_neg hk]
  have hnames : cfg.Names t key r.pipelineId r.stage := names_of_written hhash
  have hcount := count_upsertScript hi hc key r.pipelineId r.stage
    (mapping ++ ("storage_key", key) :: indexMetadata cfg.keyPrefix r.pipelineId r.stage)
  have hother : ∀ index k, k ≠ key → t.count index k = s.count index k :=
    fun index k hk => (hcount index k).trans (if_neg hk)
  have hlookup : ∀ name text, Dict.last name mapping = some text →
      (((s.hashes.lookup key).getD ∅).update (mapping ++ ("storage_key", key)
        :: indexMetadata cfg.keyPrefix r.pipelineId r.stage)).lookup name = some text :=
    lookup_of_written hmapping
  have hread := hashToRecord_isOk_iff hmapping hlookup
  refine ⟨indexed_of_key key hi hhashes hother (.inl ⟨_, _, hnames, fun index hindex => ?_⟩),
    ⟨fun h => ?_, fun h => ?_⟩⟩
  · rw [hcount, if_pos rfl, if_neg hindex]
  · exact hread.1 (h.of_some hhash).1
  · refine consistent_of_key key hc hhashes hother ?_
    rw [hhash]
    refine ⟨hread.2 h, _, _, hnames, fun index hindex => ?_⟩
    rw [hcount, if_pos rfl, if_pos hindex]

/-! ## Replay and acknowledgement -/

/-- **A replay** keeps the indexes, and keeps the DLQ consistent just if the hash of the
record is there. -/
theorem hset_attempt_iff (hi : cfg.Indexed s) (hc : cfg.Consistent py s) (key : String) (n : ℤ) :
    cfg.Indexed (s.hset key [("attempt", Json.dumps (.num n))])
      ∧ (cfg.Consistent py (s.hset key [("attempt", Json.dumps (.num n))])
        ↔ (s.hashes.lookup key).isSome = true) := by
  have hhashes : ∀ k, k ≠ key → (s.hset key [("attempt", Json.dumps (.num n))]).hashes.lookup k
      = s.hashes.lookup k := by
    intro k hk
    rw [Store.lookup_hset, if_neg hk]
  have hhash : (s.hset key [("attempt", Json.dumps (.num n))]).hashes.lookup key
      = some (((s.hashes.lookup key).getD ∅).insert "attempt" (Json.dumps (.num n))) := by
    rw [Store.lookup_hset, if_pos rfl]
    rfl
  have hmetadata : (s.hset key [("attempt", Json.dumps (.num n))]).metadata key
      = s.metadata key := by
    have hfield : ∀ name ∈ metadataFields,
        (s.hset key [("attempt", Json.dumps (.num n))]).hget key name = s.hget key name := by
      intro name hname
      have hne : name ≠ "attempt" := by
        rintro rfl
        exact absurd hname (by decide)
      unfold Store.hget
      rw [hhash, Option.bind_some, AList.lookup_insert_ne hne]
      cases s.hashes.lookup key <;> rfl
    exact List.map_congr_left hfield
  refine ⟨indexed_of_key key hi hhashes (fun _ _ _ => rfl) ?_, ?_⟩
  · refine (hi key).imp ?_ ?_
    · rintro ⟨p, st, hnames, hzero⟩
      exact ⟨p, st, hmetadata.trans hnames, hzero⟩
    · rintro ⟨hnone, hunlisted⟩
      exact ⟨hmetadata.trans hnone, hunlisted⟩
  · constructor
    · intro h
      obtain ⟨⟨r, hr⟩, _⟩ := h.of_some hhash
      cases hold : s.hashes.lookup key with
      | some hash => rfl
      | none =>
        rw [hold] at hr
        exact absurd hr (hashToRecord_ne_ok_of_none (AList.lookup_insert_ne (by decide))
          (AList.lookup_insert_ne (by decide)) r)
    · intro h
      obtain ⟨hash, hold⟩ := Option.isSome_iff_exists.1 h
      obtain ⟨⟨r, hr⟩, p, st, hnames, hone⟩ := hc.of_some hold
      refine consistent_of_key key hc hhashes (fun _ _ _ => rfl) ?_
      rw [hhash, hold]
      exact ⟨exists_hashToRecord_insert_attempt hr n, p, st, hmetadata.trans hnames, hone⟩

/-- The lists an acknowledgement looks into are those the hash names. -/
theorem count_acknowledgeScript (secondary : List String) (index k : String) :
    (s.acknowledgeScript key (indexKey cfg.keyPrefix) secondary).count index k
      = if k = key ∧ index ∈ indexKey cfg.keyPrefix
          :: (((s.metadata key).zip secondary).map (fun p => p.1.getD p.2)).filter
            (fun index => index ≠ "") then 0
        else s.count index k := by
  unfold Store.acknowledgeScript
  exact Store.count_lremAll (s.del key) key (indexKey cfg.keyPrefix :: _) index k

theorem hashes_acknowledgeScript (s : Store) (key primary : String) (secondary : List String) :
    (s.acknowledgeScript key primary secondary).hashes = (s.del key).hashes := by
  unfold Store.acknowledgeScript
  dsimp only
  rw [Store.hashes_lremAll]
  rfl

/-- **An acknowledgement** keeps the DLQ consistent. -/
theorem acknowledge_consistent (hi : cfg.Indexed s) (hc : cfg.Consistent py s) (key p st : String) :
    let t := s.acknowledgeScript key (indexKey cfg.keyPrefix)
      (orderedSecondaryIndexKeys cfg.keyPrefix p st)
    cfg.Indexed t ∧ cfg.Consistent py t := by
  intro t
  have hhashes : ∀ k, t.hashes.lookup k = if k = key then none else s.hashes.lookup k := by
    intro k
    rw [hashes_acknowledgeScript]
    exact Store.lookup_del s key k
  have hother : ∀ k, k ≠ key → t.hashes.lookup k = s.hashes.lookup k :=
    fun k hk => (hhashes k).trans (if_neg hk)
  have hnone : t.hashes.lookup key = none := (hhashes key).trans (if_pos rfl)
  have hcount : ∀ index k, k ≠ key → t.count index k = s.count index k :=
    fun index k hk => (count_acknowledgeScript _ index k).trans (if_neg (fun h => hk h.1))
  have hunlisted : t.Unlisted key := by
    intro index
    rw [count_acknowledgeScript]
    split
    next => rfl
    next hnot =>
      have hnot' := fun h => hnot ⟨rfl, h⟩
      cases hold : s.hashes.lookup key with
      | none => exact hc.of_none hold index
      | some hash =>
        obtain ⟨_, q, st', hnames, _⟩ := hc.of_some hold
        rw [count_eq hc hi hold hnames, if_neg]
        intro hmem
        refine hnot' ?_
        rcases List.mem_cons.1 hmem with hmem | hmem
        · exact hmem ▸ List.mem_cons_self
        · refine List.mem_cons_of_mem _ (List.mem_filter.2
            ⟨?_, decide_eq_true (indexKey_ne_empty cfg.keyPrefix hmem)⟩)
          rw [show s.metadata key = _ from hnames]
          exact hmem
  refine ⟨indexed_of_key key hi hother hcount
    (.inr ⟨Store.metadata_of_none hnone, hunlisted⟩), consistent_of_key key hc hother hcount ?_⟩
  rw [hnone]
  exact hunlisted

/-! ## Runs -/

variable (py cfg) in
/-- **One command** keeps the indexes, and the DLQ consistent just if it is guarded. -/
theorem step_iff (s : Store) (c : Command δ) (t : Store) (hi : cfg.Indexed s)
    (hc : cfg.Consistent py s) (hs : cfg.step py s c = some t) :
    cfg.Indexed t ∧ (cfg.Consistent py t ↔ cfg.Guard py s c) := by
  cases c with
  | write r uuid =>
    cases hs
    cases hmapping : recordToHash py cfg.payloadPolicy r with
    | error e =>
      have hwrite : cfg.write py r uuid s = s := by
        unfold write recordHash
        rw [hmapping]
        rfl
      rw [hwrite]
      refine ⟨hi, fun _ => ?_, fun _ => hc⟩
      rintro ⟨fields, hfields⟩
      rw [hmapping] at hfields
      cases hfields
    | ok mapping =>
      have hwrite : cfg.write py r uuid s = s.upsertScript (recordKey py cfg.keyPrefix r uuid)
          (indexKey cfg.keyPrefix) (orderedSecondaryIndexKeys cfg.keyPrefix r.pipelineId r.stage)
          (mapping ++ ("storage_key", recordKey py cfg.keyPrefix r uuid)
            :: indexMetadata cfg.keyPrefix r.pipelineId r.stage) := by
        unfold write recordHash
        rw [hmapping]
        rfl
      rw [hwrite]
      obtain ⟨hindexed, hiff⟩ := upsert_iff hi hc hmapping (recordKey py cfg.keyPrefix r uuid)
      exact ⟨hindexed, hiff.trans ⟨fun h _ => h, fun h => h ⟨mapping, hmapping⟩⟩⟩
  | replay r =>
    cases hs
    unfold replay
    cases hkey : existingRecordKey r with
    | error e => exact ⟨hi, fun _ key h => (nomatch hkey.symm.trans h), fun _ => hc⟩
    | ok key =>
      obtain ⟨hindexed, hiff⟩ := hset_attempt_iff hi hc key r.replayed.attempt
      refine ⟨hindexed, hiff.trans ⟨fun h key' hkey' => ?_, fun h => h key hkey⟩⟩
      cases hkey.symm.trans hkey'
      exact h
  | acknowledge r =>
    cases hs
    unfold acknowledge
    cases existingRecordKey r with
    | error e => exact ⟨hi, fun _ => trivial, fun _ => hc⟩
    | ok key =>
      obtain ⟨hindexed, hconsistent⟩ :=
        acknowledge_consistent hi hc key r.pipelineId r.stage
      exact ⟨hindexed, fun _ => trivial, fun _ => hconsistent⟩

theorem consistent_empty : cfg.Consistent py .empty := by
  intro key
  show Store.Unlisted .empty key
  exact fun _ => rfl

/-- **The Redis DLQ is consistent** in every state of a run just if every write of the run
is of a record that can be read back, and every replay finds the hash of its record. -/
theorem consistent_iff (cfg : RedisDLQ) (cs : List (Command δ)) :
    AllStates (cfg.step py) (cfg.Consistent py) .empty cs
      ↔ AllSteps (cfg.step py) (fun s c _ => cfg.Guard py s c) .empty cs :=
  allStates_iff_allSteps (fun s c t hi hc hs => step_iff py cfg s c t hi hc hs)
    (fun _ => .inr ⟨rfl, fun _ => rfl⟩) consistent_empty cs

/-- **A replay after an acknowledgement**: one client has scanned the record and replays
it, another acknowledges it before the `HSET`, which then makes a hash of its own. -/
theorem not_consistent_replay_acknowledged :
    let r : DLQRecord String :=
      { pipelineId := "orders", runId := "run", stage := "load", errorType := "ValueError"
        errorMessage := "bad", record := .null, originalRecord := .null
        processedRecord := .null, source := none, checkpoint := .null, details := .null
        middleware := none, sink := none, createdAt := "2024-01-01T00:00:00+00:00"
        attempt := 0, maxAttempts := none
        storageId := some (.key "agora:dlq:orders:run:load:2024-01-01T00:00:00+00:00:1") }
    let cfg : RedisDLQ := ⟨"agora:dlq", none⟩
    ¬ AllStates (cfg.step .ofTexts) (cfg.Consistent .ofTexts) .empty
      [.write r "", .acknowledge r, .replay r] := by
  intro r cfg h
  have hconsistent := (((h.2 _ rfl).2 _ rfl).2 _ rfl).head
  generalize hs : cfg.write .ofTexts r "" .empty = s at hconsistent
  have hkey : existingRecordKey r
      = .ok "agora:dlq:orders:run:load:2024-01-01T00:00:00+00:00:1" := rfl
  generalize "agora:dlq:orders:run:load:2024-01-01T00:00:00+00:00:1" = key at hkey
  unfold replay acknowledge at hconsistent
  rw [hkey] at hconsistent
  dsimp only at hconsistent
  have hhash := Store.lookup_hset (s.acknowledgeScript key (indexKey cfg.keyPrefix)
    (orderedSecondaryIndexKeys cfg.keyPrefix r.pipelineId r.stage)) key key
    [("attempt", Json.dumps (.num r.replayed.attempt))]
  rw [if_pos rfl, hashes_acknowledgeScript, Store.lookup_del, if_pos rfl] at hhash
  obtain ⟨⟨r', hr'⟩, _⟩ := hconsistent.of_some hhash
  exact hashToRecord_ne_ok_of_none (AList.lookup_insert_ne (by decide))
    (AList.lookup_insert_ne (by decide)) r' hr'

end RedisDLQ

end Dlq

import AgoraPlugins.Kafka.DlqCompaction

/-!
# Put, read back and deleted

A record is put under a key, read back from its message with that key, and deleted under the
key of what was read. What comes back is the record with its values as JSON has them, in clear
and encrypted.

The key is taken from the record that was read, so the delete carries the same one, and the
two messages leave nothing. One key is not taken: an empty one, which counts as no key. Only a
`key_fn` can give it, and it is asked again then, about the record that was read; if it gives
another key this time, the record stays.
-/

namespace Dlq

namespace KafkaPayloads

variable {δ : Type} {py : Python δ}

theorem applyPayloadPolicy_of_ne {policy : Option DLQPayloadPolicy}
    (hmode : ∀ p ∈ policy, p.mode ≠ .redacted) (r : DLQRecord δ) :
    applyPayloadPolicy py policy (some r) = .ok (some r) := by
  unfold applyPayloadPolicy
  cases policy with
  | none => rfl
  | some p => exact if_neg (hmode p rfl)

/-- **What a put and a delete leave.** -/
theorem scan_put_delete {policy : Option DLQPayloadPolicy}
    (hmode : ∀ p ∈ policy, p.mode ≠ .redacted) {digest : Payload → String}
    {put delete k k' : String} {r : DLQRecord δ}
    (hput : decodeDlqEnvelope py digest policy put = .ok ("put", k, some r))
    (hdelete : @decodeDlqEnvelope δ py digest policy delete = .ok ("delete", k', none))
    (spillThreshold : Option ℤ) :
    scan py policy digest spillThreshold [put, delete] = .ok (if k' = k then [] else [(0, r)]) := by
  have hfirst : update py policy none {} 0 k (some r)
      = .ok { memory := AList.insert k (0, some r) ∅ } := by
    unfold update
    rw [applyPayloadPolicy_of_ne hmode]
    rfl
  have hsecond : scanMessage py policy digest none
        (1, { memory := AList.insert k (0, some r) ∅ }) delete
      = .ok (2, { memory := AList.insert k' (1, none) (AList.insert k (0, some r) ∅) }) := by
    unfold scanMessage
    rw [hdelete]
    rfl
  have hfold : [put, delete].foldlM (scanMessage py policy digest none) (0, {})
      = .ok (2, { memory := AList.insert k' (1, none) (AList.insert k (0, some r) ∅) }) := by
    rw [List.foldlM_cons, scanMessage_put hput hfirst]
    show [delete].foldlM (scanMessage py policy digest none)
      (1, { memory := AList.insert k (0, some r) ∅ }) = _
    rw [List.foldlM_cons, hsecond]
    rfl
  have hlive : live (AList.insert k' (1, none) (AList.insert k (0, some r) ∅))
      = if k' = k then [] else [(k, 0, r)] := by
    have hentry : List.kerase k' (AList.insert k (0, some r) ∅ : Dict String _).entries
        = if k' = k then [] else [⟨k, 0, some r⟩] := by
      show List.kerase k' [(⟨k, 0, some r⟩ : Σ _ : String, ℕ × Option (DLQRecord δ))] = _
      split
      next hk => rw [List.kerase_cons_eq hk]
      next hk => rw [List.kerase_cons_ne hk, List.kerase_nil]
    unfold live
    rw [AList.entries_insert, hentry]
    split <;> rfl
  rw [scan_eq_memory (keepsRecords_of_ne hmode)]
  unfold scan
  rw [hfold]
  show liveRecords py policy
    { memory := AList.insert k' (1, none) (AList.insert k (0, some r) ∅) } = _
  rw [liveRecords_memory rfl, hlive]
  split
  next => rw [List.mergeSort_nil, List.map_nil]
  next => rw [List.mergeSort_singleton, List.map_singleton]

/-- A key that is made without a `key_fn` is not empty. -/
theorem defaultStorageKey_ne (uuid : String) (r : DLQRecord δ) :
    defaultStorageKey py uuid r ≠ "" := by
  unfold defaultStorageKey
  simp

/-- **The key of a record that was read** is the one it was stored under, if this is not empty.
An empty one was made by a `key_fn`, which is asked once more. -/
theorem recordStorageKey_keyed (keyFn : Option (DLQRecord δ → KeyValue)) (uuid uuid' : String)
    (r r' : DLQRecord δ) :
    (recordStorageKey py keyFn uuid r ≠ "" →
        recordStorageKey py keyFn uuid' (keyed (recordStorageKey py keyFn uuid r) r')
          = recordStorageKey py keyFn uuid r)
      ∧ (recordStorageKey py keyFn uuid r = "" → ∃ f, keyFn = some f
        ∧ recordStorageKey py keyFn uuid' (keyed (recordStorageKey py keyFn uuid r) r')
          = storageKeyFromValue (f (keyed "" r'))) := by
  refine ⟨fun hk => if_neg hk, fun hk => ?_⟩
  rw [hk]
  cases keyFn with
  | some f =>
    refine ⟨f, rfl, ?_⟩
    unfold recordStorageKey keyed
    dsimp only
    rw [if_pos rfl]
  | none =>
    unfold recordStorageKey at hk
    dsimp only at hk
    split at hk
    next text _ =>
      split at hk
      next => exact absurd hk (defaultStorageKey_ne uuid r)
      next htext => exact absurd hk htext
    next => exact absurd hk (defaultStorageKey_ne uuid r)
    next => exact absurd hk (defaultStorageKey_ne uuid r)

/-- **The round trip of a record.** Its put is read back under the key of the record, with the
values as JSON has them. The delete of what was read carries this key, or the key of a `key_fn`
if it is empty, and the two leave nothing if they have one key. -/
theorem upsert_delete (codec : KafkaDLQSinkCodec δ)
    (hmode : ∀ p ∈ codec.payloadPolicy, p.mode ≠ .redacted) (digest : Payload → String)
    (uuid uuid' : String) (r : DLQRecord δ) :
    ∃ k k' put delete, buildUpsertEnvelope py codec uuid r = .ok (keyed k r, put)
      ∧ decodeDlqEnvelope py digest codec.payloadPolicy (serialize put)
        = .ok ("put", k, some (keyed k (normalized r)))
      ∧ buildDeleteEnvelope py codec uuid' (keyed k (normalized r))
        = .ok (keyed k' (normalized r), delete)
      ∧ @decodeDlqEnvelope δ py digest codec.payloadPolicy (serialize delete)
        = .ok ("delete", k', none)
      ∧ (k ≠ "" → k' = k)
      ∧ (k = "" → ∃ f, codec.keyFn = some f ∧ k' = storageKeyFromValue (f (keyed k (normalized r))))
      ∧ ∀ spillThreshold, scan py codec.payloadPolicy digest spillThreshold
          [serialize put, serialize delete]
        = .ok (if k' = k then [] else [(0, keyed k (normalized r))]) := by
  obtain ⟨hne, hempty⟩ := @recordStorageKey_keyed δ py codec.keyFn uuid uuid' r (normalized r)
  generalize hk : recordStorageKey py codec.keyFn uuid r = k at hne hempty
  generalize hk' : recordStorageKey py codec.keyFn uuid' (keyed k (normalized r)) = k' at hne hempty
  obtain ⟨put, hput, hdecode⟩ := @decodeDlqEnvelope_put δ py digest codec.payloadPolicy hmode k
    (keyed k r)
  obtain ⟨delete, hdelete, hdecode'⟩ := @decodeDlqEnvelope_delete δ py digest codec.payloadPolicy k'
  refine ⟨k, k', put, delete, ?_, hdecode, ?_, hdecode', hne, ?_,
    scan_put_delete hmode hdecode hdecode'⟩
  · unfold buildUpsertEnvelope
    dsimp only
    rw [hk, hput]
    rfl
  · unfold buildDeleteEnvelope
    dsimp only
    rw [hk', hdelete]
    rfl
  · intro hempty'
    obtain ⟨f, hf, hkey⟩ := hempty hempty'
    rw [hempty']
    exact ⟨f, hf, hkey⟩

/-- A record without a key. -/
def unkeyed : DLQRecord String where
  pipelineId := "orders"
  runId := "run"
  stage := "parse"
  errorType := "ValueError"
  errorMessage := "bad order"
  record := .obj [("id", .num 42)]
  originalRecord := .null
  processedRecord := .null
  source := none
  checkpoint := .null
  details := .null
  middleware := none
  sink := none
  createdAt := "2024-01-01T00:00:00+00:00"
  attempt := 0
  maxAttempts := none
  storageId := none

/-- A codec that encrypts and makes its keys itself. -/
def encrypting : KafkaDLQSinkCodec String where
  keyFn := none
  payloadPolicy := some .reverse

/-- Each message gets a key of its own, so the record is found again unless the two are the same. -/
theorem upsert_delete_unkeyed : ∃ k k' put delete,
    buildUpsertEnvelope .ofTexts encrypting "1f" unkeyed = .ok (keyed k unkeyed, put)
      ∧ buildDeleteEnvelope .ofTexts encrypting "2e" (keyed k (normalized unkeyed))
        = .ok (keyed k' (normalized unkeyed), delete)
      ∧ ∀ spillThreshold, scan .ofTexts encrypting.payloadPolicy (fun _ => "") spillThreshold
          [serialize put, serialize delete]
        = .ok (if k' = k then [] else [(0, keyed k (normalized unkeyed))]) := by
  have hmode : ∀ p ∈ encrypting.payloadPolicy, p.mode ≠ .redacted := by
    rintro p ⟨⟩
    decide
  obtain ⟨k, k', put, delete, hput, _, hdelete, _, _, _, hscan⟩ :=
    @upsert_delete String .ofTexts encrypting hmode (fun _ => "") "1f" "2e" unkeyed
  exact ⟨k, k', put, delete, hput, hdelete, hscan⟩

/-- A `key_fn` that gives an empty key to a record without one. -/
def fickle : KafkaDLQSinkCodec String where
  keyFn := some (fun r => .text (if r.storageId = none then "" else "late"))
  payloadPolicy := none

/-- **The delete has another key**, and the record stays. -/
theorem scan_fickle_ne : ∃ put delete,
    buildUpsertEnvelope .ofTexts fickle "1f" unkeyed = .ok (keyed "" unkeyed, put)
      ∧ decodeDlqEnvelope .ofTexts (fun _ => "") none (serialize put)
        = .ok ("put", "", some (keyed "" (normalized unkeyed)))
      ∧ buildDeleteEnvelope .ofTexts fickle "2e" (keyed "" (normalized unkeyed))
        = .ok (keyed "late" (normalized unkeyed), delete)
      ∧ scan .ofTexts none (fun _ => "") none [serialize put, serialize delete]
        ≠ .ok ([] : List (ℕ × DLQRecord String)) := by
  have hmode : ∀ p ∈ (none : Option DLQPayloadPolicy), p.mode ≠ .redacted := nofun
  obtain ⟨put, hput, hdecode⟩ := @decodeDlqEnvelope_put String .ofTexts (fun _ => "") none hmode ""
    (keyed "" unkeyed)
  obtain ⟨delete, hdelete, hdecode'⟩ := @decodeDlqEnvelope_delete String .ofTexts (fun _ => "") none
    "late"
  refine ⟨put, delete, ?_, hdecode, ?_, ?_⟩
  · exact congrArg (fun x => x >>= fun envelope => pure (keyed "" unkeyed, envelope)) hput
  · exact congrArg (fun x => x >>= fun envelope =>
      pure (keyed "late" (normalized unkeyed), envelope)) hdelete
  · rw [scan_put_delete hmode hdecode hdecode' none, if_neg (by decide)]
    exact nofun

end KafkaPayloads

end Dlq

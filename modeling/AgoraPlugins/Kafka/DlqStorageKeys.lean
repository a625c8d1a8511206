import AgoraPlugins.Fallible
import AgoraPlugins.Kafka.DlqRoundTrip

/-!
# Which records share a storage key

A storage key is a text, and a `key_fn` may give bytes. These are read as UTF-8, and written in
hexadecimal digits if they are not UTF-8, with nothing in the text that says which. Either way
alone tells any two values apart. Together they do not: the digits are UTF-8 themselves, so a key
that is not UTF-8 has the storage key of the text of its own digits (`storageKey_eq_iff`).

Two records with one storage key are one record to the compaction: the later put replaces the
earlier one, and a delete of either removes both. With two keys, nothing that is done with one
record touches what is kept of the other, in memory or in the table (`apart_iff`).
-/

namespace Dlq

namespace KafkaPayloads

variable {δ : Type} {py : Python δ}

/-! ## Keys as bytes -/

/-- The bytes of what a `key_fn` gives, which are those of UTF-8 for a text. -/
def KeyValue.toBytes : KeyValue → ByteArray
  | .text s => s.toByteArray
  | .bytes b => b

/-- The first key is not UTF-8, and the second is the text of its digits. -/
def DigitsOf (v w : KeyValue) : Prop :=
  String.fromUTF8? v.toBytes = none ∧ w.toBytes = (hex v.toBytes).toByteArray

/-- **A text is stored as it is**, so every key is stored by its bytes. -/
theorem storageKeyFromValue_eq (v : KeyValue) :
    storageKeyFromValue v = (String.fromUTF8? v.toBytes).getD (hex v.toBytes) := by
  cases v with
  | bytes b => rfl
  | text s =>
    have hs : String.fromUTF8? s.toByteArray = some s := fromUTF8?_eq_some_iff.2 rfl
    show s = (String.fromUTF8? s.toByteArray).getD _
    rw [hs]
    rfl

/-- Two digits tell a byte. -/
theorem digits_inj {x y : UInt8} (h₁ : Nat.digitChar (x.toNat / 16) = Nat.digitChar (y.toNat / 16))
    (h₂ : Nat.digitChar (x.toNat % 16) = Nat.digitChar (y.toNat % 16)) : x = y := by
  have hall : ∀ m < 16, ∀ n < 16, Nat.digitChar m = Nat.digitChar n → m = n := by decide
  have hx := x.toNat_lt
  have hy := y.toNat_lt
  have hhigh := hall _ (by omega) _ (by omega) h₁
  have hlow := hall _ (by omega) _ (by omega) h₂
  exact UInt8.toNat_inj.1 (by omega)

theorem hexDigits_inj : ∀ {xs ys : List UInt8},
    xs.flatMap (fun x => [Nat.digitChar (x.toNat / 16), Nat.digitChar (x.toNat % 16)])
      = ys.flatMap (fun x => [Nat.digitChar (x.toNat / 16), Nat.digitChar (x.toNat % 16)])
      → xs = ys
  | [], [], _ => rfl
  | [], _ :: _, h => by cases h
  | _ :: _, [], h => by cases h
  | x :: xs, y :: ys, h => by
    simp only [List.flatMap_cons, List.cons_append, List.nil_append, List.cons.injEq] at h
    rw [digits_inj h.1 h.2.1, hexDigits_inj h.2.2]

/-- **Hexadecimal digits keep bytes apart.** -/
theorem hex_inj {b b' : ByteArray} (h : hex b = hex b') : b = b' := by
  have hdata := hexDigits_inj (String.ofList_injective h)
  exact ByteArray.ext (Array.toList_inj.1 hdata)

theorem DigitsOf.fromUTF8 {v w : KeyValue} (h : DigitsOf v w) :
    String.fromUTF8? w.toBytes = some (hex v.toBytes) :=
  fromUTF8?_eq_some_iff.2 h.2

/-- **When two keys are stored under one text**: they have the same bytes, or one is the text of
the digits of the other. -/
theorem storageKey_eq_iff (v w : KeyValue) :
    storageKeyFromValue v = storageKeyFromValue w
      ↔ v.toBytes = w.toBytes ∨ DigitsOf v w ∨ DigitsOf w v := by
  rw [storageKeyFromValue_eq, storageKeyFromValue_eq]
  constructor
  · intro h
    cases hv : String.fromUTF8? v.toBytes with
    | some s =>
      have hs := fromUTF8?_eq_some_iff.1 hv
      cases hw : String.fromUTF8? w.toBytes with
      | some t =>
        rw [hv, hw] at h
        rw [hs, fromUTF8?_eq_some_iff.1 hw]
        exact .inl (congrArg String.toByteArray h)
      | none =>
        rw [hv, hw] at h
        exact .inr (.inr ⟨hw, hs.trans (congrArg String.toByteArray h)⟩)
    | none =>
      cases hw : String.fromUTF8? w.toBytes with
      | some t =>
        rw [hv, hw] at h
        exact .inr (.inl ⟨hv, (fromUTF8?_eq_some_iff.1 hw).trans
          (congrArg String.toByteArray h.symm)⟩)
      | none =>
        rw [hv, hw] at h
        exact .inl (hex_inj h)
  · rintro (h | h | h)
    · rw [h]
    · rw [h.1, h.fromUTF8]
      rfl
    · rw [h.1, h.fromUTF8]
      rfl

/-! ## What is kept of a record -/

/-- What was done last with a key: at which place of the scan, and whether it is gone. -/
def KafkaDLQCompactionState.latest (s : KafkaDLQCompactionState δ) (storageKey : String) :
    Option (ℕ × Bool) :=
  match s.conn with
  | none => (s.memory.lookup storageKey).map (fun e => (e.1, e.2.isNone))
  | some rows => (rows.lookup storageKey).map (fun row =>
      (row.sequence, row.deleted || row.payload.isNone))

variable {policy : Option DLQPayloadPolicy}

theorem latest_keep {s s' : KafkaDLQCompactionState δ} {sequence : ℕ} {storageKey : String}
    {stored : Option (DLQRecord δ)}
    (h : keep py policy s sequence storageKey stored = .ok s') :
    s'.latest storageKey = some (sequence, stored.isNone)
      ∧ ∀ k ≠ storageKey, s'.latest k = s.latest k := by
  unfold keep at h
  unfold KafkaDLQCompactionState.latest
  cases hs : s.conn with
  | none =>
    rw [hs] at h
    cases h
    refine ⟨?_, fun k hk => ?_⟩
    · simp
    · simp [AList.lookup_insert_ne hk]
  | some rows =>
    rw [hs] at h
    dsimp only at h
    rw [rowOf_eq] at h
    cases h
    refine ⟨?_, fun k hk => ?_⟩
    · simp [encode]
    · simp [AList.lookup_insert_ne hk]

/-- The table is made of what memory has. -/
theorem latest_spill (memory : Dict String (ℕ × Option (DLQRecord δ))) (k : String) :
    ({ conn := some (Dict.mapValues (encode py policy) memory) }
      : KafkaDLQCompactionState δ).latest k
      = ({ memory := memory } : KafkaDLQCompactionState δ).latest k := by
  unfold KafkaDLQCompactionState.latest encode
  simp [Function.comp_def]

theorem isNone_applyPayloadPolicy {r stored : Option (DLQRecord δ)}
    (h : applyPayloadPolicy py policy r = .ok stored) : stored.isNone = r.isNone := by
  cases r with
  | none =>
    cases h
    rfl
  | some r =>
    cases policy with
    | none =>
      cases h
      rfl
    | some p =>
      unfold applyPayloadPolicy at h
      dsimp only at h
      split at h
      next =>
        obtain ⟨redacted, _, h⟩ := exists_of_bind_eq_ok h
        cases h
        rfl
      next =>
        cases h
        rfl

/-- **An update does something with its own key only.** -/
theorem latest_update {spillThreshold : Option ℤ} {s s' : KafkaDLQCompactionState δ} {sequence : ℕ}
    {storageKey : String} {r : Option (DLQRecord δ)}
    (h : update py policy spillThreshold s sequence storageKey r = .ok s') :
    s'.latest storageKey = some (sequence, r.isNone)
      ∧ ∀ k ≠ storageKey, s'.latest k = s.latest k := by
  obtain ⟨stored, hstored, h⟩ := exists_of_bind_eq_ok h
  rw [← isNone_applyPayloadPolicy hstored]
  split at h
  next hspill =>
    rw [spillToSqlite_eq] at h
    have hkeep : keep py policy { conn := some (Dict.mapValues (encode py policy) s.memory) } sequence
        storageKey stored = .ok s' := h
    obtain ⟨hlatest, hothers⟩ := latest_keep hkeep
    have hmemory : s.conn = none := by
      unfold shouldSpill at hspill
      simp only [Bool.and_eq_true, Option.isNone_iff_eq_none] at hspill
      exact hspill.1.1
    refine ⟨hlatest, fun k hk => ?_⟩
    rw [hothers k hk, latest_spill]
    unfold KafkaDLQCompactionState.latest
    rw [hmemory]
  next => exact latest_keep h

/-- A message that is about one key only, if it can be read. -/
def Under (py : Python δ) (digest : Payload → String) (policy : Option DLQPayloadPolicy)
    (storageKey : String) (message : String) : Prop :=
  ∀ operation k r, decodeDlqEnvelope py digest policy message = .ok (operation, k, r)
    → k = storageKey

theorem latest_scanMessage {digest : Payload → String} {spillThreshold : Option ℤ}
    {s s' : ℕ × KafkaDLQCompactionState δ} {message storageKey k : String}
    (hunder : Under py digest policy storageKey message) (hk : k ≠ storageKey)
    (h : scanMessage py policy digest spillThreshold s message = .ok s') :
    s'.2.latest k = s.2.latest k := by
  obtain ⟨⟨operation, storageKey', r⟩, hdecode, h⟩ := exists_of_bind_eq_ok h
  obtain ⟨state, hupdate, h⟩ := exists_of_bind_eq_ok h
  cases h
  rw [← hunder _ _ _ hdecode] at hk
  exact (latest_update hupdate).2 k hk

/-- **Messages about one key leave the others alone.** -/
theorem latest_foldlM {digest : Payload → String} {spillThreshold : Option ℤ}
    {messages : List String} {storageKey k : String}
    (hunder : ∀ message ∈ messages, Under py digest policy storageKey message)
    (hk : k ≠ storageKey) {s s' : ℕ × KafkaDLQCompactionState δ}
    (h : messages.foldlM (scanMessage py policy digest spillThreshold) s = .ok s') :
    s'.2.latest k = s.2.latest k := by
  induction messages generalizing s with
  | nil =>
    cases h
    rfl
  | cons message messages ih =>
    rw [List.foldlM_cons] at h
    obtain ⟨s₁, hmessage, h⟩ := exists_of_bind_eq_ok h
    rw [ih (fun m hm => hunder m (List.mem_cons_of_mem _ hm)) h,
      latest_scanMessage (hunder message List.mem_cons_self) hk hmessage]

/-- What is not gone is found. -/
theorem exists_of_latest {s : KafkaDLQCompactionState δ} {storageKey : String} {sequence : ℕ}
    {found : List (ℕ × DLQRecord δ)} (h : s.latest storageKey = some (sequence, false))
    (hfound : liveRecords py policy s = .ok found) : ∃ r, (sequence, r) ∈ found := by
  unfold KafkaDLQCompactionState.latest at h
  unfold liveRecords at hfound
  cases hs : s.conn with
  | none =>
    rw [hs] at h hfound
    obtain ⟨⟨sequence', stored⟩, hlookup, h⟩ := Option.map_eq_some_iff.1 h
    cases stored with
    | none => cases h
    | some r =>
      cases h
      cases hfound
      refine ⟨r, List.mem_mergeSort.2 (List.mem_filterMap.2 ⟨⟨storageKey, _, some r⟩, ?_, rfl⟩)⟩
      exact AList.mem_lookup_iff.1 hlookup
  | some rows =>
    rw [hs] at h hfound
    obtain ⟨⟨sequence', payload, deleted⟩, hlookup, h⟩ := Option.map_eq_some_iff.1 h
    cases payload with
    | none => simp at h
    | some text =>
      simp at h
      obtain ⟨rfl, rfl⟩ := h
      obtain ⟨y, hy, hread⟩ := Fallible.mem_of_mapM_eq_ok hfound _
        (List.mem_mergeSort.2 (List.mem_filterMap.2
          ⟨⟨storageKey, sequence', some text, false⟩, AList.mem_lookup_iff.1 hlookup, rfl⟩))
      obtain ⟨payload, _, hread⟩ := exists_of_bind_eq_ok hread
      obtain ⟨r, _, hread⟩ := exists_of_bind_eq_ok hread
      cases hread
      exact ⟨_, hy⟩

/-! ## Two records -/

/-- What a message has beside its payload. -/
theorem find_encodeDlqEnvelope {storageKey operation : String} {r : Option (DLQRecord δ)}
    {envelope : Payload} (h : encodeDlqEnvelope py storageKey operation r policy = .ok envelope) :
    Json.find "op" (Json.normalMembers envelope) = some (.str operation)
      ∧ Json.find "storage_key" (Json.normalMembers envelope) = some (.str storageKey) := by
  unfold encodeDlqEnvelope at h
  cases r with
  | none =>
    cases h
    exact ⟨rfl, rfl⟩
  | some r =>
    cases policy with
    | none =>
      cases h
      exact ⟨rfl, rfl⟩
    | some p =>
      dsimp only at h
      split at h
      next hmode =>
        unfold DLQPayloadPolicy.encryptPayload at h
        rw [if_pos hmode] at h
        cases h
        obtain ⟨hnormal, hop, hkey, _⟩ := find_sealed p operation storageKey
          (p.cipher.encrypt (Json.dumps (.obj (recordToPayload py (some p) r))))
        refine ⟨?_, ?_⟩
        · exact (congrArg (Json.find "op") hnormal).trans hop
        · exact (congrArg (Json.find "storage_key") hnormal).trans hkey
      next =>
        cases h
        exact ⟨rfl, rfl⟩

/-- A message is about the key it was made with. -/
theorem under_of_encodeDlqEnvelope {storageKey operation : String} {r : Option (DLQRecord δ)}
    {policy' : Option DLQPayloadPolicy} {envelope : Payload}
    (h : encodeDlqEnvelope py storageKey operation r policy' = .ok envelope)
    (digest : Payload → String) : Under py digest policy storageKey (serialize envelope) := by
  obtain ⟨hop, hkey⟩ := find_encodeDlqEnvelope h
  intro operation' k r' hdecode
  unfold decodeDlqEnvelope serialize Payload.item at hdecode
  rw [Json.loads_dumps, Json.normal] at hdecode
  dsimp only at hdecode
  rw [hop, hkey] at hdecode
  obtain ⟨key, hkey, hdecode⟩ := exists_of_bind_eq_ok hdecode
  cases hkey
  obtain ⟨stored, _, hdecode⟩ := exists_of_bind_eq_ok hdecode
  cases stored with
  | none =>
    cases hdecode
    rfl
  | some payload =>
    obtain ⟨read, _, hdecode⟩ := exists_of_bind_eq_ok hdecode
    cases hdecode
    rfl

/-- The record has no key of its own, so a `key_fn` is asked. -/
def Unkeyed (r : DLQRecord δ) : Prop := ∀ text, r.storageId = some (.key text) → text = ""

theorem recordStorageKey_of_unkeyed {r : DLQRecord δ} (h : Unkeyed r) (keyFn : DLQRecord δ → KeyValue)
    (uuid : String) :
    recordStorageKey py (some keyFn) uuid r = storageKeyFromValue (keyFn r) := by
  unfold recordStorageKey
  cases hid : r.storageId with
  | none => rfl
  | some id =>
    cases id with
    | key text => exact if_pos (h text hid)
    | row _ => rfl

/-- **Two records that are kept apart.** They have different keys. Whatever is done under the key
of the second, what was done last with the first stays, and if this was a put, the first is found
at its place. -/
structure Apart (py : Python δ) (keyFn : DLQRecord δ → KeyValue) (r r' : DLQRecord δ) : Prop where
  key_ne : ∀ uuid uuid',
    recordStorageKey py (some keyFn) uuid r ≠ recordStorageKey py (some keyFn) uuid' r'
  stays : ∀ digest policy spillThreshold uuid uuid' (messages : List String)
      (s s' : ℕ × KafkaDLQCompactionState δ),
    (∀ message ∈ messages, Under py digest policy (recordStorageKey py (some keyFn) uuid' r') message)
    → messages.foldlM (scanMessage py policy digest spillThreshold) s = .ok s'
    → s'.2.latest (recordStorageKey py (some keyFn) uuid r)
      = s.2.latest (recordStorageKey py (some keyFn) uuid r)
  found : ∀ digest policy spillThreshold uuid uuid' (put : String) (read : DLQRecord δ)
      (messages : List String) (s s' : ℕ × KafkaDLQCompactionState δ)
      (records : List (ℕ × DLQRecord δ)),
    decodeDlqEnvelope py digest policy put
      = .ok ("put", recordStorageKey py (some keyFn) uuid r, some read)
    → (∀ message ∈ messages,
        Under py digest policy (recordStorageKey py (some keyFn) uuid' r') message)
    → (put :: messages).foldlM (scanMessage py policy digest spillThreshold) s = .ok s'
    → liveRecords py policy s'.2 = .ok records → ∃ stored, (s.1, stored) ∈ records

theorem apart_of_ne {keyFn : DLQRecord δ → KeyValue} {r r' : DLQRecord δ}
    (hne : ∀ uuid uuid',
      recordStorageKey py (some keyFn) uuid r ≠ recordStorageKey py (some keyFn) uuid' r') :
    Apart py keyFn r r' where
  key_ne := hne
  stays digest policy spillThreshold uuid uuid' messages s s' hunder h :=
    latest_foldlM hunder (hne uuid uuid') h
  found digest policy spillThreshold uuid uuid' put read messages s s' records hput hunder h hlive := by
    rw [List.foldlM_cons] at h
    obtain ⟨s₁, hmessage, h⟩ := exists_of_bind_eq_ok h
    obtain ⟨decoded, hdecode, hmessage⟩ := exists_of_bind_eq_ok hmessage
    rw [hput] at hdecode
    cases hdecode
    obtain ⟨state, hupdate, hmessage⟩ := exists_of_bind_eq_ok hmessage
    cases hmessage
    have hlatest := (latest_update hupdate).1
    rw [← latest_foldlM hunder (hne uuid uuid') h] at hlatest
    exact exists_of_latest hlatest hlive

/-- **When two records are kept apart.** Records without a key of their own, for which the `key_fn`
gives different bytes, are kept apart from one another if and only if neither key fails to be UTF-8
while the other is the text of its hexadecimal digits. -/
theorem apart_iff {keyFn : DLQRecord δ → KeyValue} {r r' : DLQRecord δ} (hr : Unkeyed r)
    (hr' : Unkeyed r') (hne : (keyFn r).toBytes ≠ (keyFn r').toBytes) :
    (Apart py keyFn r r' ∧ Apart py keyFn r' r)
      ↔ ¬ DigitsOf (keyFn r) (keyFn r') ∧ ¬ DigitsOf (keyFn r') (keyFn r) := by
  have hkeys := storageKey_eq_iff (keyFn r) (keyFn r')
  constructor
  · rintro ⟨hapart, _⟩
    have hkey := hapart.key_ne "" ""
    rw [recordStorageKey_of_unkeyed hr, recordStorageKey_of_unkeyed hr', ne_eq, hkeys] at hkey
    exact ⟨fun h => hkey (.inr (.inl h)), fun h => hkey (.inr (.inr h))⟩
  · rintro ⟨hdigits, hdigits'⟩
    have hkey : ∀ uuid uuid',
        recordStorageKey py (some keyFn) uuid r ≠ recordStorageKey py (some keyFn) uuid' r' := by
      intro uuid uuid'
      rw [recordStorageKey_of_unkeyed hr, recordStorageKey_of_unkeyed hr', ne_eq, hkeys]
      rintro (h | h | h)
      exacts [hne h, hdigits h, hdigits' h]
    exact ⟨apart_of_ne hkey, apart_of_ne (fun uuid uuid' => (hkey uuid' uuid).symm)⟩

/-- A `key_fn` that gives a byte to the records of one run and a text to the others. -/
def byteOrText (text : String) (r : DLQRecord String) : KeyValue :=
  if r.runId = "byte" then .bytes ⟨#[255]⟩ else .text text

/-- The record with the byte. -/
def byteRun : DLQRecord String := { unkeyed with runId := "byte" }

theorem unkeyed_byteRun : Unkeyed byteRun := by
  rintro text ⟨⟩

theorem unkeyed_unkeyed : Unkeyed unkeyed := by
  rintro text ⟨⟩

theorem storageKey_byteRun (text uuid : String) :
    recordStorageKey .ofTexts (some (byteOrText text)) uuid byteRun = "ff" := by
  rw [recordStorageKey_of_unkeyed unkeyed_byteRun]
  show storageKeyFromValue (.bytes ⟨#[255]⟩) = "ff"
  decide +kernel

/-- The record with the byte is found after the other one is put and deleted. -/
theorem apart_iff_byteRun : ∃ put put' delete,
    encodeDlqEnvelope .ofTexts "ff" "put" (some byteRun) none = .ok put
      ∧ encodeDlqEnvelope .ofTexts "0xff" "put" (some unkeyed) none = .ok put'
      ∧ @encodeDlqEnvelope String .ofTexts "0xff" "delete" none none = .ok delete
      ∧ ∀ spillThreshold records, scan Python.ofTexts none (fun _ => "") spillThreshold
          [serialize put, serialize put', serialize delete] = .ok records →
        ∃ stored, (0, stored) ∈ records := by
  have hmode : ∀ p ∈ (none : Option DLQPayloadPolicy), p.mode ≠ .redacted := by
    rintro p ⟨⟩
  have hne : (byteOrText "0xff" byteRun).toBytes ≠ (byteOrText "0xff" unkeyed).toBytes := by
    decide
  have hdigits : ¬ DigitsOf (byteOrText "0xff" byteRun) (byteOrText "0xff" unkeyed) := by
    rintro ⟨_, h⟩
    revert h
    decide
  have hdigits' : ¬ DigitsOf (byteOrText "0xff" unkeyed) (byteOrText "0xff" byteRun) := by
    rintro ⟨h, _⟩
    rw [fromUTF8?_eq_some_iff.2 (show (byteOrText "0xff" unkeyed).toBytes
      = ("0xff" : String).toByteArray from rfl)] at h
    cases h
  have hapart := ((@apart_iff String .ofTexts _ _ _ unkeyed_byteRun unkeyed_unkeyed hne).mpr
    ⟨hdigits, hdigits'⟩).1
  obtain ⟨put, hput, hread⟩ := @decodeDlqEnvelope_put String .ofTexts (fun _ => "") none hmode "ff"
    byteRun
  obtain ⟨put', hput', _⟩ := @decodeDlqEnvelope_put String .ofTexts (fun _ => "") none hmode "0xff"
    unkeyed
  obtain ⟨delete, hdelete, _⟩ := @decodeDlqEnvelope_delete String .ofTexts (fun _ => "") none "0xff"
  refine ⟨put, put', delete, hput, hput', hdelete, fun spillThreshold records hscan => ?_⟩
  obtain ⟨s', hfold, hlive⟩ := exists_of_bind_eq_ok hscan
  have hunder : ∀ message ∈ [serialize put', serialize delete],
      @Under String .ofTexts (fun _ => "") none "0xff" message := by
    simp only [List.forall_mem_cons, List.not_mem_nil, false_implies, implies_true, and_true]
    exact ⟨under_of_encodeDlqEnvelope hput' _, under_of_encodeDlqEnvelope hdelete _⟩
  have hkey' : recordStorageKey .ofTexts (some (byteOrText "0xff")) "" unkeyed = "0xff" :=
    recordStorageKey_of_unkeyed unkeyed_unkeyed _ _
  refine hapart.found (fun _ => "") none spillThreshold "" "" (serialize put)
    (keyed "ff" (normalized byteRun)) _ (0, {}) s' records ?_ ?_ hfold hlive
  · rw [storageKey_byteRun]
    exact hread
  · rw [hkey']
    exact hunder

/-- **A byte and its digits have one storage key**, and the record with the byte is gone once the
other one is deleted. -/
theorem storageKey_byteRun_eq :
    (¬ ∀ (keyFn : DLQRecord String → KeyValue) (r r' : DLQRecord String), Unkeyed r → Unkeyed r' →
      (keyFn r).toBytes ≠ (keyFn r').toBytes → ∀ uuid uuid',
        recordStorageKey .ofTexts (some keyFn) uuid r
          ≠ recordStorageKey .ofTexts (some keyFn) uuid' r')
      ∧ ∃ put delete,
        encodeDlqEnvelope .ofTexts (recordStorageKey .ofTexts (some (byteOrText "ff")) "" byteRun) "put"
          (some byteRun) none = .ok put
        ∧ @encodeDlqEnvelope String .ofTexts
          (recordStorageKey .ofTexts (some (byteOrText "ff")) "" unkeyed) "delete" none none
          = .ok delete
        ∧ scan Python.ofTexts none (fun _ => "") none [serialize put, serialize delete]
          = .ok ([] : List (ℕ × DLQRecord String)) := by
  have hmode : ∀ p ∈ (none : Option DLQPayloadPolicy), p.mode ≠ .redacted := by
    rintro p ⟨⟩
  have hkey' : ∀ uuid, recordStorageKey .ofTexts (some (byteOrText "ff")) uuid unkeyed = "ff" :=
    fun uuid => recordStorageKey_of_unkeyed unkeyed_unkeyed _ uuid
  constructor
  · intro hall
    refine hall (byteOrText "ff") byteRun unkeyed unkeyed_byteRun unkeyed_unkeyed ?_ "" "" ?_
    · decide
    · rw [storageKey_byteRun, hkey']
  · rw [storageKey_byteRun, hkey']
    obtain ⟨put, hput, hread⟩ := @decodeDlqEnvelope_put String .ofTexts (fun _ => "") none hmode "ff"
      byteRun
    obtain ⟨delete, hdelete, hread'⟩ := @decodeDlqEnvelope_delete String .ofTexts (fun _ => "") none
      "ff"
    refine ⟨put, delete, hput, hdelete, ?_⟩
    rw [scan_put_delete hmode hread hread' none, if_pos rfl]

end KafkaPayloads

end Dlq

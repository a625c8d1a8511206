import AgoraPlugins.ClusterSlots
import AgoraPlugins.Redis.ListSink

/-!
# The slots of markers

The script that pushes a record has two keys, the list and the marker, and a cluster executes it
only if both are in one slot. So a marker begins with the hash tag of the list key, or with the key
in braces if it has no braces itself.

With neither, it begins with the key as it is, and is hashed as a whole: the key has a brace but no
tag, and nothing that follows makes it one. Nor does the empty key in braces. Then the slot depends
on the id of the operation, and is that of the list only by accident.
-/

open ClusterSlots

namespace ListSink

/-- The id of an operation, as `uuid4` makes it. -/
structure IsOperationId (id : String) : Prop where
  length : id.length = 32
  digits : id.toList.all (fun c => c.isDigit || ('a' ≤ c && c ≤ 'f')) = true
  version : id.toList[12]? = some '4'
  variant : ∀ c ∈ id.toList[16]?, c = '8' ∨ c = '9' ∨ c = 'a' ∨ c = 'b'

/-- **The marker is in the slot of the list**, whatever the operation. -/
def SharesSlot (key : String) : Prop :=
  ∀ id, IsOperationId id → keyHashSlot (listIdempotencyKey key id) = keyHashSlot key

/-- **The code's tag is the cluster's.** -/
theorem redisHashTag_eq (key : String) :
    redisHashTag key = (hashTag key.toList).map String.ofList := by
  unfold redisHashTag hashTag Json.openBrace Json.closeBrace
  cases key.toList.dropWhile (fun c => c ≠ '\x7b') with
  | nil => rfl
  | cons c rest =>
    dsimp only
    by_cases hmem : '\x7d' ∈ rest
    · rw [if_pos hmem]
      cases htake : rest.takeWhile (fun c => c ≠ '\x7d') with
      | nil => rw [if_neg (fun h => h.2 rfl)]; rfl
      | cons d tag => rw [if_pos ⟨hmem, List.cons_ne_nil d tag⟩]; rfl
    · rw [if_neg hmem, if_neg (fun h => hmem h.1)]
      rfl

/-- The marker of a key without a tag. -/
theorem markerSlot_of_none {key : String} (h : redisHashTag key = none) :
    markerSlot key = if '\x7b' ∉ key.toList ∧ '\x7d' ∉ key.toList then "\x7b" ++ key ++ "\x7d"
      else key := by
  unfold markerSlot
  rw [h]
  rfl

/-- What follows a key in its marker. -/
def markerSuffix (id : String) : List Char := ":agora:list-write:".toList ++ id.toList

theorem toList_listIdempotencyKey (key id : String) :
    (listIdempotencyKey key id).toList = (markerSlot key).toList ++ markerSuffix id := by
  unfold listIdempotencyKey markerSuffix
  rw [String.toList_append, String.toList_append, List.append_assoc]

/-- A marker that begins with a tag is hashed by it. -/
theorem hashed_of_markerSlot {key id : String} {tag : List Char} (hclose : '\x7d' ∉ tag)
    (hne : tag ≠ []) (h : (markerSlot key).toList = '\x7b' :: (tag ++ ['\x7d'])) :
    hashed (listIdempotencyKey key id).toList = tag := by
  have htext : (listIdempotencyKey key id).toList
      = '\x7b' :: (tag ++ '\x7d' :: markerSuffix id) := by
    rw [toList_listIdempotencyKey, h]
    simp
  unfold hashed
  rw [htext, hashTag_of_tag hclose hne]
  rfl

theorem notMem_markerSuffix {id : String} (h : IsOperationId id) {c : Char}
    (hc : c = '\x7b' ∨ c = '\x7d') : c ∉ markerSuffix id := by
  unfold markerSuffix
  rw [List.mem_append, not_or]
  constructor
  · rcases hc with rfl | rfl <;> decide
  · intro hmem
    have hdigit := List.all_eq_true.1 h.digits c hmem
    rcases hc with rfl | rfl <;> exact absurd hdigit (by decide)

/-- A marker that begins with a text without a tag is hashed as a whole. -/
theorem hashed_of_hashTag_eq_none {key id : String} (h : IsOperationId id)
    (hkey : hashTag (markerSlot key).toList = none) :
    hashed (listIdempotencyKey key id).toList = (listIdempotencyKey key id).toList := by
  unfold hashed
  rw [toList_listIdempotencyKey, hashTag_append hkey (notMem_markerSuffix h (.inl rfl))
    (notMem_markerSuffix h (.inr rfl))]
  rfl

/-- Two operations that differ in the last digit of their ids. -/
def sampleIds : String × String :=
  ("00000000000040008000000000000000", "00000000000040008000000000000001")

theorem isOperationId_sampleIds : IsOperationId sampleIds.1 ∧ IsOperationId sampleIds.2 := by
  have hvariant : ∀ {id : String}, id.toList[16]? = some '8' →
      ∀ c ∈ id.toList[16]?, c = '8' ∨ c = '9' ∨ c = 'a' ∨ c = 'b' := by
    intro id hid c hc
    rw [hid] at hc
    exact .inl (Option.some.inj hc).symm
  exact ⟨⟨by decide, by decide, by decide, hvariant (by decide)⟩,
    ⟨by decide, by decide, by decide, hvariant (by decide)⟩⟩

/-- **A marker without a tag** is in different slots for different operations. -/
theorem not_sharesSlot {key : String} (hkey : hashTag (markerSlot key).toList = none) :
    ¬ SharesSlot key := by
  intro h
  obtain ⟨hzero, hone⟩ := isOperationId_sampleIds
  have heq := (h _ hzero).trans (h _ hone).symm
  unfold keyHashSlot at heq
  rw [hashed_of_hashTag_eq_none hzero hkey, hashed_of_hashTag_eq_none hone hkey,
    toList_listIdempotencyKey, toList_listIdempotencyKey] at heq
  let text := (markerSlot key).toList
    ++ (":agora:list-write:".toList ++ "0000000000004000800000000000000".toList)
  refine slotOf_ne_of_last text ?_
  have hsplit : ∀ (id : String) (c : Char),
      id.toList = "0000000000004000800000000000000".toList ++ [c] →
      (markerSlot key).toList ++ markerSuffix id = text ++ [c] := by
    intro id c hid
    unfold markerSuffix
    rw [hid]
    simp only [text, List.append_assoc]
  rw [← hsplit sampleIds.1 '0' (by decide), ← hsplit sampleIds.2 '1' (by decide)]
  exact heq

/-- **A marker is in the slot of its list** just if the list key has a tag, or is not empty and has
no braces. -/
theorem sharesSlot_iff (key : String) :
    SharesSlot key ↔ (hashTag key.toList).isSome
      ∨ key ≠ "" ∧ '\x7b' ∉ key.toList ∧ '\x7d' ∉ key.toList := by
  cases htag : hashTag key.toList with
  | some tag =>
    refine iff_of_true (fun id _ => ?_) (.inl rfl)
    obtain ⟨hclose, hne⟩ := notMem_of_hashTag htag
    unfold keyHashSlot
    rw [hashed_of_markerSlot hclose hne, hashed, htag]
    · rfl
    · unfold markerSlot
      rw [redisHashTag_eq, htag]
      simp
  | none =>
    have hnone : redisHashTag key = none := by rw [redisHashTag_eq, htag]; rfl
    by_cases hbraces : '\x7b' ∉ key.toList ∧ '\x7d' ∉ key.toList
    · have hslot : (markerSlot key).toList = '\x7b' :: (key.toList ++ ['\x7d']) := by
        rw [markerSlot_of_none hnone, if_pos hbraces]
        simp
      by_cases hempty : key = ""
      · refine iff_of_false (not_sharesSlot ?_) ?_
        · rw [hslot, hempty]
          exact hashTag_of_empty []
        · simp [hempty]
      · refine iff_of_true (fun id _ => ?_) (.inr ⟨hempty, hbraces⟩)
        unfold keyHashSlot
        rw [hashed_of_markerSlot hbraces.2 _ hslot, hashed, htag]
        · rfl
        · exact fun hnil => hempty (String.toList_eq_nil_iff.1 hnil)
    · refine iff_of_false (not_sharesSlot ?_) ?_
      · rw [markerSlot_of_none hnone, if_neg hbraces]
        exact htag
      · rintro (h | ⟨_, h⟩)
        · cases h
        · exact hbraces h

/-- **A key with an opening brace only**: the marker is in another slot. -/
theorem not_sharesSlot_open_brace :
    keyHashSlot (listIdempotencyKey "jobs\x7b" "00000000000040008000000000000000")
      ≠ keyHashSlot "jobs\x7b" := by
  decide +kernel

end ListSink

import AgoraPlugins.Fallible
import AgoraPlugins.Reply
import AgoraPlugins.Varint
import Mathlib.Data.Int.Bitwise
import Mathlib.Tactic.Ring

/-!
# The schema registry's wire format

A record that was serialised against a schema begins with a zero byte and the schema's number,
in four bytes. For Protobuf the path to the message within the schema follows: how many
indexes it has, and the indexes, all of them as numbers in base 128 of twice the value (the
zigzag form of one that is not negative), except that the path to the first message is a
single zero byte.

What is encoded is decoded to what it was, and the payload found where it begins. The decoder
takes any bytes at all: it ends, with a `ValueError` or with an offset inside of them
(`decodeConfluentPrefix_encodeConfluentPrefix`).
-/

namespace SchemaRegistryWire

def confluentMagicByte : UInt8 := 0

def valueError (message : String) : Exc := .exception "ValueError" message

/-! ## Varints -/

/-- **`encode_unsigned_varint`.** -/
def encodeUnsignedVarint (value : ℕ) : List UInt8 :=
  let bits := value &&& 0x7F
  let remaining := value >>> 7
  if remaining ≠ 0 then UInt8.ofNat (bits ||| 0x80) :: encodeUnsignedVarint remaining
  else [UInt8.ofNat bits]
termination_by value
decreasing_by
  rename_i h
  have hdiv : value >>> 7 = value / 128 := Nat.shiftRight_eq_div_pow value 7
  simp only [hdiv] at h ⊢
  omega

/-- The loop of `decode_unsigned_varint`, over the bytes from the cursor on. -/
def decodeVarintLoop : List UInt8 → ℕ → ℕ → ℕ → Except Exc (ℕ × ℕ)
  | [], _, _, _ =>
    .error (valueError "Unexpected end of schema-registry varint payload.")
  | item :: value, shift, decoded, cursor =>
    let decoded := decoded ||| ((item &&& 0x7F).toNat <<< shift)
    if item &&& 0x80 = 0 then .ok (decoded, cursor + 1)
    else decodeVarintLoop value (shift + 7) decoded (cursor + 1)

/-- **`decode_unsigned_varint`.** -/
def decodeUnsignedVarint (value : List UInt8) (offset : ℕ) : Except Exc (ℕ × ℕ) :=
  decodeVarintLoop (value.drop offset) 0 0 offset

/-- **`encode_zigzag_varint`.** -/
def encodeZigzagVarint (value : ℤ) : Except Exc (List UInt8) :=
  if value < 0 then .error (valueError "Varint value must be >= 0.")
  else .ok (encodeUnsignedVarint (value.toNat <<< 1))

/-- **`decode_zigzag_varint`.** -/
def decodeZigzagVarint (value : List UInt8) (offset : ℕ) : Except Exc (ℤ × ℕ) := do
  let (encoded, offset) ← decodeUnsignedVarint value offset
  let decoded := Int.xor (encoded >>> 1 : ℕ) (-(encoded &&& 1 : ℕ))
  if decoded < 0 then
    .error (valueError "Decoded zigzag varint must be >= 0 for message indexes.")
  else .ok (decoded, offset)

/-! ## Message indexes -/

/-- An index of the list, if it is one. -/
def encodeMessageIndex (index : ℤ) : Except Exc (List UInt8) :=
  if index < 0 then .error (valueError "Protobuf message indexes must be >= 0.")
  else encodeZigzagVarint index

/-- **`encode_message_indexes`.** -/
def encodeMessageIndexes (indexes : List ℤ) : Except Exc (List UInt8) :=
  if indexes = [0] then .ok [0]
  else do
    let length ← encodeZigzagVarint indexes.length
    let items ← indexes.mapM encodeMessageIndex
    .ok (length ++ items.flatten)

/-- The loop of `decode_message_indexes`. -/
def decodeItems (value : List UInt8) : ℕ → ℕ → Except Exc (List ℤ × ℕ)
  | 0, offset => .ok ([], offset)
  | length + 1, offset => do
    let (item, offset) ← decodeZigzagVarint value offset
    let (items, offset) ← decodeItems value length offset
    .ok (item :: items, offset)

/-- **`decode_message_indexes`.** -/
def decodeMessageIndexes (value : List UInt8) (offset : ℕ) : Except Exc (List ℤ × ℕ) :=
  match value[offset]? with
  | none =>
    .error (valueError "Schema-registry Protobuf payload is missing message indexes.")
  | some 0 => .ok ([0], offset + 1)
  | some _ => do
    let (length, offset) ← decodeZigzagVarint value offset
    decodeItems value length.toNat offset

/-! ## Prefixes -/

/-- `struct.pack(">I", _)`. -/
def packSchemaId (schemaId : ℤ) : Except Exc (List UInt8) :=
  if 0 ≤ schemaId ∧ schemaId < 2 ^ 32 then
    let n := schemaId.toNat
    .ok [UInt8.ofNat (n >>> 24), UInt8.ofNat (n >>> 16), UInt8.ofNat (n >>> 8), UInt8.ofNat n]
  else .error (.exception "struct.error" "'I' format requires 0 <= number <= 4294967295")

/-- `struct.unpack(">I", _)`. -/
def unpackSchemaId (b₃ b₂ b₁ b₀ : UInt8) : ℕ :=
  b₃.toNat <<< 24 + b₂.toNat <<< 16 + b₁.toNat <<< 8 + b₀.toNat

/-- **`encode_confluent_prefix`.** -/
def encodeConfluentPrefix (schemaId : ℤ) (messageIndexes : Option (List ℤ)) :
    Except Exc (List UInt8) := do
  let packed ← packSchemaId schemaId
  match messageIndexes with
  | none => .ok (confluentMagicByte :: packed)
  | some indexes => do
    let encoded ← encodeMessageIndexes indexes
    .ok (confluentMagicByte :: (packed ++ encoded))

/-- **A decoded prefix**, with the place where the payload begins. -/
structure Prefix where
  schemaId : ℤ
  payloadOffset : ℕ
  messageIndexes : Option (List ℤ)
  deriving DecidableEq

/-- **`decode_confluent_prefix`.** -/
def decodeConfluentPrefix (value : List UInt8) (expectMessageIndexes : Bool) :
    Except Exc Prefix :=
  match value with
  | magic :: b₃ :: b₂ :: b₁ :: b₀ :: _ =>
    if magic ≠ confluentMagicByte then
      .error (valueError "Unsupported schema-registry payload magic byte.")
    else if expectMessageIndexes then do
      let (indexes, offset) ← decodeMessageIndexes value 5
      .ok ⟨unpackSchemaId b₃ b₂ b₁ b₀, offset, some indexes⟩
    else .ok ⟨unpackSchemaId b₃ b₂ b₁ b₀, 5, none⟩
  | _ => .error (valueError "Schema-registry payload must be at least 5 bytes long.")

/-! ## Varints are numbers in base 128 -/

theorem and_0x7F (value : ℕ) : value &&& 0x7F = value % 128 :=
  Nat.and_two_pow_sub_one_eq_mod value 7

theorem encodeUnsignedVarint_eq (value : ℕ) : encodeUnsignedVarint value = Varint.encode value := by
  induction value using Varint.encode.induct with
  | case1 value hlt =>
    have hremaining : value >>> 7 = 0 := by
      rw [Nat.shiftRight_eq_div_pow]
      omega
    rw [encodeUnsignedVarint, Varint.encode, if_pos hlt, hremaining, if_neg (not_not.2 rfl),
      and_0x7F, Nat.mod_eq_of_lt hlt]
  | case2 value hlt ih =>
    have hremaining : value >>> 7 = value / 128 := Nat.shiftRight_eq_div_pow value 7
    have hor : value % 128 ||| 0x80 = value % 128 + 128 :=
      Nat.or_two_pow_eq_add_of_lt (n := 7) (Nat.mod_lt _ (by decide))
    rw [encodeUnsignedVarint, Varint.encode, if_neg hlt, hremaining, if_pos (by omega), and_0x7F,
      hor, ih]

/-- The low bits of a byte. -/
theorem toNat_and_0x7F (item : UInt8) : (item &&& 0x7F).toNat = item.toNat % 128 := by
  rw [UInt8.toNat_and]
  exact and_0x7F item.toNat

/-- The high bit of a byte. -/
theorem and_0x80_eq_zero_iff (item : UInt8) : item &&& 0x80 = 0 ↔ item.toNat < 128 := by
  have hbyte : ∀ n : Fin 256, (n : ℕ) &&& 128 = 0 ↔ (n : ℕ) < 128 := by decide +kernel
  rw [← UInt8.toNat_inj, UInt8.toNat_and]
  exact hbyte ⟨item.toNat, item.toNat_lt⟩

theorem decodeVarintLoop_eq (value : List UInt8) {shift decoded : ℕ} (h : decoded < 2 ^ shift)
    (cursor : ℕ) :
    decodeVarintLoop value shift decoded cursor
      = ((Varint.decode value).map
          (fun p => (decoded + p.1 * 2 ^ shift, cursor + p.2))).elim
        (.error (valueError "Unexpected end of schema-registry varint payload.")) .ok := by
  induction value generalizing shift decoded cursor with
  | nil => rfl
  | cons item value ih =>
    -- the bits that are read lie above those that have been
    have hor : decoded ||| ((item &&& 0x7F).toNat <<< shift)
        = decoded + item.toNat % 128 * 2 ^ shift := by
      rw [toNat_and_0x7F, Nat.or_comm, ← Nat.shiftLeft_add_eq_or_of_lt h, Nat.shiftLeft_eq,
        Nat.add_comm]
    rw [decodeVarintLoop, Varint.decode, hor]
    by_cases hlast : item.toNat < 128
    · rw [if_pos ((and_0x80_eq_zero_iff item).2 hlast), if_pos hlast, Nat.mod_eq_of_lt hlast]
      rfl
    · rw [if_neg (mt (and_0x80_eq_zero_iff item).1 hlast), if_neg hlast]
      have hmod : item.toNat % 128 = item.toNat - 128 := by
        have := item.toNat_lt
        omega
      have hlt : decoded + item.toNat % 128 * 2 ^ shift < 2 ^ (shift + 7) := by
        have hdigit : item.toNat % 128 + 1 ≤ 128 := Nat.mod_lt _ (by decide)
        calc decoded + item.toNat % 128 * 2 ^ shift
            < 2 ^ shift + item.toNat % 128 * 2 ^ shift := Nat.add_lt_add_right h _
          _ = (item.toNat % 128 + 1) * 2 ^ shift := by ring
          _ ≤ 128 * 2 ^ shift := Nat.mul_le_mul_right _ hdigit
          _ = 2 ^ (shift + 7) := by ring
      rw [ih hlt, hmod]
      cases Varint.decode value with
      | none => rfl
      | some p =>
        simp only [Option.map_some, Option.elim_some, Except.ok.injEq, Prod.mk.injEq]
        exact ⟨by ring, by omega⟩

/-- **A varint is a number in base 128**, read from the offset on. -/
theorem decodeUnsignedVarint_eq (value : List UInt8) (offset : ℕ) :
    decodeUnsignedVarint value offset
      = ((Varint.decode (value.drop offset)).map (fun p => (p.1, offset + p.2))).elim
        (.error (valueError "Unexpected end of schema-registry varint payload.")) .ok := by
  rw [decodeUnsignedVarint, decodeVarintLoop_eq _ (by decide : 0 < 2 ^ 0)]
  simp

/-! ## Decoding what was encoded -/

/-- What is read after some bytes, and what comes after it. -/
theorem decodeZigzagVarint_append {n : ℤ} {encoded : List UInt8}
    (h : encodeZigzagVarint n = .ok encoded) (before after : List UInt8) :
    decodeZigzagVarint (before ++ (encoded ++ after)) before.length
      = .ok (n, before.length + encoded.length) := by
  obtain ⟨hn, rfl⟩ := Fallible.ite_error_eq_ok_iff.1 h
  obtain ⟨m, rfl⟩ := Int.eq_ofNat_of_zero_le (not_lt.1 hn)
  have hdecode : decodeUnsignedVarint
      (before ++ (encodeUnsignedVarint (m <<< 1) ++ after)) before.length
        = .ok (m <<< 1, before.length + (encodeUnsignedVarint (m <<< 1)).length) := by
    rw [decodeUnsignedVarint_eq, List.drop_left, encodeUnsignedVarint_eq,
      Varint.decode_encode_append]
    rfl
  have hhalf : (m <<< 1) >>> 1 = m := Nat.shiftLeft_shiftRight m 1
  have heven : (m <<< 1) &&& 1 = 0 := by
    rw [Nat.and_one_is_mod, Nat.shiftLeft_eq]
    omega
  have hxor : Int.xor (m : ℕ) (-((0 : ℕ) : ℤ)) = m := by
    show ((m ^^^ 0 : ℕ) : ℤ) = m
    rw [Nat.xor_zero]
  rw [decodeZigzagVarint, Int.toNat_natCast, hdecode]
  show (if Int.xor ((m <<< 1) >>> 1 : ℕ) (-((m <<< 1) &&& 1 : ℕ)) < 0 then _ else _) = _
  rw [hhalf, heven, hxor, if_neg (by omega)]

/-- The items of a list, read after some bytes. -/
theorem decodeItems_append {indexes : List ℤ} {items : List (List UInt8)}
    (h : List.Forall₂ (fun index item => encodeMessageIndex index = .ok item) indexes items)
    (before after : List UInt8) :
    decodeItems (before ++ (items.flatten ++ after)) indexes.length before.length
      = .ok (indexes, before.length + items.flatten.length) := by
  induction h generalizing before with
  | nil => rfl
  | @cons index item indexes items hitem _ ih =>
    have hzigzag : encodeZigzagVarint index = .ok item := by
      unfold encodeMessageIndex at hitem
      split at hitem
      · cases hitem
      · exact hitem
    have hfirst := decodeZigzagVarint_append hzigzag before (items.flatten ++ after)
    have hrest := ih (before ++ item)
    rw [List.append_assoc, List.length_append] at hrest
    rw [List.flatten_cons, List.append_assoc, List.length_cons, decodeItems, hfirst]
    show (decodeItems _ indexes.length (before.length + item.length) >>= _) = _
    rw [hrest]
    simp [bind, Except.bind, Nat.add_assoc]

/-- A list that is not negative anywhere is encoded. -/
theorem exists_mapM_encodeMessageIndex {indexes : List ℤ} (h : ∀ index ∈ indexes, 0 ≤ index) :
    ∃ items, indexes.mapM encodeMessageIndex = .ok items := by
  refine ⟨indexes.map (fun index => encodeUnsignedVarint (index.toNat <<< 1)), ?_⟩
  rw [Fallible.mapM_eq_ok_iff, List.forall₂_map_right_iff, List.forall₂_same]
  intro index hindex
  have hnot : ¬ index < 0 := not_lt.2 (h index hindex)
  rw [encodeMessageIndex, if_neg hnot, encodeZigzagVarint, if_neg hnot]

/-- **The path to a message** is decoded to what it was, wherever it stands. -/
theorem decodeMessageIndexes_append {indexes : List ℤ} {encoded : List UInt8} (hne : indexes ≠ [])
    (h : encodeMessageIndexes indexes = .ok encoded) (before after : List UInt8) :
    decodeMessageIndexes (before ++ (encoded ++ after)) before.length
      = .ok (indexes, before.length + encoded.length) := by
  unfold encodeMessageIndexes at h
  split at h
  · rename_i hfirst
    cases h
    rw [hfirst, decodeMessageIndexes, List.getElem?_append_right le_rfl]
    simp
  · obtain ⟨length, hlength, h⟩ := Fallible.bind_eq_ok_iff.1 h
    obtain ⟨items, hitems, h⟩ := Fallible.bind_eq_ok_iff.1 h
    cases h
    -- the length is no zero byte, so the list is read item by item
    obtain ⟨hnonneg, hvarint⟩ := Fallible.ite_error_eq_ok_iff.1 hlength
    have hpos : (indexes.length : ℤ).toNat <<< 1 ≠ 0 := by
      have := List.length_pos_of_ne_nil hne
      rw [Int.toNat_natCast, Nat.shiftLeft_eq]
      omega
    obtain ⟨b, bytes, hcons, hb⟩ := Varint.encode_eq_cons hpos
    rw [encodeUnsignedVarint_eq, hcons] at hvarint
    have hbyte : (before ++ (length ++ items.flatten ++ after))[before.length]? = some b := by
      rw [List.getElem?_append_right le_rfl, hvarint]
      simp
    have hread := decodeZigzagVarint_append hlength before (items.flatten ++ after)
    have hlist := decodeItems_append (Fallible.mapM_eq_ok_iff.1 hitems) (before ++ length) after
    rw [List.append_assoc, List.length_append] at hlist
    rw [decodeMessageIndexes, hbyte]
    split
    · rename_i heq
      cases heq
    · rename_i heq
      exact absurd (Option.some.inj heq) hb
    · rw [List.append_assoc, hread]
      show decodeItems _ ((indexes.length : ℤ).toNat) _ = _
      rw [Int.toNat_natCast, hlist, List.length_append, Nat.add_assoc]

/-- **A schema's number is read back.** -/
theorem unpackSchemaId_pack {n : ℕ} (h : n < 2 ^ 32) :
    unpackSchemaId (UInt8.ofNat (n >>> 24)) (UInt8.ofNat (n >>> 16)) (UInt8.ofNat (n >>> 8))
      (UInt8.ofNat n) = n := by
  simp only [unpackSchemaId, UInt8.toNat_ofNat', Nat.shiftRight_eq_div_pow, Nat.shiftLeft_eq]
  omega

/-! ## Decoding anything -/

/-- A decoder that goes on from an offset: it ends within the bytes, or with a `ValueError`. -/
def Bounded {α : Type} (value : List UInt8) (r : Except Exc (α × ℕ)) : Prop :=
  (∃ message, r = .error (valueError message))
    ∨ ∃ a offset, r = .ok (a, offset) ∧ offset ≤ value.length

theorem Bounded.bind {α β : Type} {value : List UInt8} {r : Except Exc (α × ℕ)}
    {f : α × ℕ → Except Exc (β × ℕ)} (h : Bounded value r)
    (hf : ∀ a offset, offset ≤ value.length → Bounded value (f (a, offset))) :
    Bounded value (r >>= f) := by
  obtain ⟨message, rfl⟩ | ⟨a, offset, rfl, hoffset⟩ := h
  · exact .inl ⟨message, rfl⟩
  · exact hf a offset hoffset

theorem bounded_decodeUnsignedVarint (value : List UInt8) {offset : ℕ} (h : offset ≤ value.length) :
    Bounded value (decodeUnsignedVarint value offset) := by
  rw [decodeUnsignedVarint_eq]
  cases hdecode : Varint.decode (value.drop offset) with
  | none => exact .inl ⟨_, rfl⟩
  | some p =>
    have hlength := (Varint.length_of_decode hdecode).2
    rw [List.length_drop] at hlength
    exact .inr ⟨p.1, offset + p.2, rfl, by omega⟩

theorem bounded_decodeZigzagVarint (value : List UInt8) {offset : ℕ} (h : offset ≤ value.length) :
    Bounded value (decodeZigzagVarint value offset) := by
  refine (bounded_decodeUnsignedVarint value h).bind (fun encoded offset hoffset => ?_)
  dsimp only
  split
  · exact .inl ⟨_, rfl⟩
  · exact .inr ⟨_, offset, rfl, hoffset⟩

theorem bounded_decodeItems (value : List UInt8) (length : ℕ) {offset : ℕ}
    (h : offset ≤ value.length) : Bounded value (decodeItems value length offset) := by
  induction length generalizing offset with
  | zero => exact .inr ⟨[], offset, rfl, h⟩
  | succ length ih =>
    refine (bounded_decodeZigzagVarint value h).bind (fun item offset hoffset => ?_)
    refine (ih hoffset).bind (fun items offset hoffset => ?_)
    exact .inr ⟨item :: items, offset, rfl, hoffset⟩

theorem bounded_decodeMessageIndexes (value : List UInt8) (offset : ℕ) :
    Bounded value (decodeMessageIndexes value offset) := by
  unfold decodeMessageIndexes
  split
  · exact .inl ⟨_, rfl⟩
  · rename_i hbyte
    have hlt := (List.getElem?_eq_some_iff.1 hbyte).1
    exact .inr ⟨[0], offset + 1, rfl, hlt⟩
  · rename_i b _ hbyte
    have hlt := (List.getElem?_eq_some_iff.1 hbyte).1
    exact (bounded_decodeZigzagVarint value hlt.le).bind
      (fun length offset hoffset => bounded_decodeItems value length.toNat hoffset)

/-- **Any bytes at all** are refused with a `ValueError`, or have their payload begin within
them. -/
theorem decodeConfluentPrefix_bounded (value : List UInt8) (expectMessageIndexes : Bool) :
    (∃ message, decodeConfluentPrefix value expectMessageIndexes = .error (valueError message))
      ∨ ∃ p, decodeConfluentPrefix value expectMessageIndexes = .ok p
        ∧ p.payloadOffset ≤ value.length := by
  unfold decodeConfluentPrefix
  split
  · rename_i magic b₃ b₂ b₁ b₀ payload
    split
    · exact .inl ⟨_, rfl⟩
    · split
      · obtain ⟨message, h⟩ | ⟨indexes, offset, h, hoffset⟩ :=
          bounded_decodeMessageIndexes (magic :: b₃ :: b₂ :: b₁ :: b₀ :: payload) 5
        · refine .inl ⟨message, ?_⟩
          rw [h]
          rfl
        · refine .inr ⟨⟨unpackSchemaId b₃ b₂ b₁ b₀, offset, some indexes⟩, ?_, hoffset⟩
          rw [h]
          rfl
      · exact .inr ⟨_, rfl, by simp⟩
  · exact .inl ⟨_, rfl⟩

/-- **The prefix is decoded to what it was.** For a schema's number below 2^32 and a path of
indexes that are not negative, the encoded prefix in front of any payload is decoded to that
number, that path and the place where the payload begins. -/
theorem decodeConfluentPrefix_append {schemaId : ℤ} (hid : 0 ≤ schemaId ∧ schemaId < 2 ^ 32)
    {indexes : List ℤ} (hne : indexes ≠ []) (hnonneg : ∀ index ∈ indexes, 0 ≤ index)
    (payload : List UInt8) :
    ∃ encoded, encodeConfluentPrefix schemaId (some indexes) = .ok encoded
      ∧ decodeConfluentPrefix (encoded ++ payload) true
        = .ok ⟨schemaId, encoded.length, some indexes⟩
      ∧ (encoded ++ payload).drop encoded.length = payload := by
  obtain ⟨n, rfl⟩ := Int.eq_ofNat_of_zero_le hid.1
  have hn : n < 2 ^ 32 := by exact_mod_cast hid.2
  obtain ⟨items, hitems⟩ := exists_mapM_encodeMessageIndex hnonneg
  have hpath : ∃ path, encodeMessageIndexes indexes = .ok path := by
    unfold encodeMessageIndexes
    split
    · exact ⟨_, rfl⟩
    · rw [encodeZigzagVarint, if_neg (by omega), hitems]
      exact ⟨_, rfl⟩
  obtain ⟨path, hpath⟩ := hpath
  -- the number takes the four bytes after the first one
  have hread := decodeMessageIndexes_append hne hpath
    [confluentMagicByte, UInt8.ofNat (n >>> 24), UInt8.ofNat (n >>> 16), UInt8.ofNat (n >>> 8),
      UInt8.ofNat n] payload
  refine ⟨confluentMagicByte :: ([UInt8.ofNat (n >>> 24), UInt8.ofNat (n >>> 16),
    UInt8.ofNat (n >>> 8), UInt8.ofNat n] ++ path), ?_, ?_, List.drop_left⟩
  · rw [encodeConfluentPrefix, packSchemaId, if_pos hid]
    show (encodeMessageIndexes indexes >>= _) = _
    rw [hpath]
    rfl
  · simp only [List.cons_append, List.nil_append, List.length_cons, List.length_nil] at hread ⊢
    rw [decodeConfluentPrefix, if_neg (not_not.2 rfl), if_pos rfl, hread]
    simp only [bind, Except.bind, unpackSchemaId_pack hn, Except.ok.injEq, Prefix.mk.injEq,
      true_and, and_true]
    omega

/-- **The wire format.** What is encoded is decoded to what it was, with the payload where it
begins; and decoding any bytes ends with a `ValueError` or with an offset inside of them. -/
theorem decodeConfluentPrefix_encodeConfluentPrefix {schemaId : ℤ}
    (hid : 0 ≤ schemaId ∧ schemaId < 2 ^ 32) {indexes : List ℤ} (hne : indexes ≠ [])
    (hnonneg : ∀ index ∈ indexes, 0 ≤ index) (payload value : List UInt8)
    (expectMessageIndexes : Bool) :
    (∃ encoded, encodeConfluentPrefix schemaId (some indexes) = .ok encoded
        ∧ decodeConfluentPrefix (encoded ++ payload) true
          = .ok ⟨schemaId, encoded.length, some indexes⟩
        ∧ (encoded ++ payload).drop encoded.length = payload)
      ∧ ((∃ message,
          decodeConfluentPrefix value expectMessageIndexes = .error (valueError message))
        ∨ ∃ p, decodeConfluentPrefix value expectMessageIndexes = .ok p
          ∧ p.payloadOffset ≤ value.length) :=
  ⟨decodeConfluentPrefix_append hid hne hnonneg payload,
    decodeConfluentPrefix_bounded value expectMessageIndexes⟩

/-- The path to the second message within the first, before two bytes of payload; and bytes
that end within the path. -/
theorem decodeConfluentPrefix_encodeConfluentPrefix_nested :
    (∃ encoded, encodeConfluentPrefix 300 (some [0, 1]) = .ok encoded
        ∧ decodeConfluentPrefix (encoded ++ [7, 8]) true = .ok ⟨300, encoded.length, some [0, 1]⟩
        ∧ (encoded ++ [7, 8]).drop encoded.length = [7, 8])
      ∧ ((∃ message, decodeConfluentPrefix [0, 0, 0, 0, 1, 4, 0] true
          = .error (valueError message))
        ∨ ∃ p, decodeConfluentPrefix [0, 0, 0, 0, 1, 4, 0] true = .ok p
          ∧ p.payloadOffset ≤ [0, 0, 0, 0, 1, 4, 0].length) :=
  decodeConfluentPrefix_encodeConfluentPrefix (by decide) (by decide) (by decide) [7, 8]
    [0, 0, 0, 0, 1, 4, 0] true

end SchemaRegistryWire

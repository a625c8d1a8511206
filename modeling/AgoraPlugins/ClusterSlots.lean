import Mathlib.Data.List.TakeWhile
import Mathlib.Tactic.Common

/-!
# The slots of a cluster

A key of a Redis Cluster is in the slot that a checksum of it says, sixteen bits of which fourteen
count. Of a key with a hash tag only the tag is looked at: what stands between the first opening
brace and the first closing one after it, unless there is nothing between them.

The checksum is linear in exclusive or. So two texts that differ in their last character, and in
one bit of it, are in different slots, whatever comes before (`slotOf_ne_of_last`).
-/

namespace ClusterSlots

/-! ## The checksum -/

/-- One bit of **CRC16**, with the polynomial `0x1021`. -/
def shift (c : BitVec 16) : BitVec 16 := if c.msb then (c <<< 1) ^^^ 0x1021#16 else c <<< 1

def shifts : ℕ → BitVec 16 → BitVec 16
  | 0, c => c
  | n + 1, c => shifts n (shift c)

/-- One byte. -/
def crcByte (c : BitVec 16) (b : UInt8) : BitVec 16 :=
  shifts 8 (c ^^^ (b.toBitVec.setWidth 16 <<< 8))

def crc16 (bytes : List UInt8) : BitVec 16 := bytes.foldl crcByte 0#16

theorem xor_cancel (x y p : BitVec 16) : x ^^^ p ^^^ (y ^^^ p) = x ^^^ y := by
  rw [BitVec.xor_assoc, BitVec.xor_comm y p, ← BitVec.xor_assoc p p, BitVec.xor_self,
    BitVec.zero_xor]

theorem shift_xor (c d : BitVec 16) : shift (c ^^^ d) = shift c ^^^ shift d := by
  unfold shift
  rw [BitVec.msb_xor, BitVec.shiftLeft_xor_distrib]
  cases c.msb <;> cases d.msb
  · rfl
  · exact BitVec.xor_assoc _ _ _
  · show (c <<< 1) ^^^ (d <<< 1) ^^^ 0x1021#16 = (c <<< 1) ^^^ 0x1021#16 ^^^ (d <<< 1)
    rw [BitVec.xor_assoc, BitVec.xor_comm (d <<< 1), BitVec.xor_assoc]
  · exact (xor_cancel _ _ _).symm

theorem shifts_xor (n : ℕ) (c d : BitVec 16) : shifts n (c ^^^ d) = shifts n c ^^^ shifts n d := by
  induction n generalizing c d with
  | zero => rfl
  | succ n ih => rw [shifts, shift_xor, ih, shifts, shifts]

/-- **The last bit** of the last byte is seen in the last bit of the polynomial. -/
theorem crcByte_zero_xor_one (c : BitVec 16) : crcByte c 49 = crcByte c 48 ^^^ 0x1021#16 := by
  have hbytes : c ^^^ ((49 : UInt8).toBitVec.setWidth 16 <<< 8)
      = c ^^^ ((48 : UInt8).toBitVec.setWidth 16 <<< 8) ^^^ 0x100#16 := by
    rw [BitVec.xor_assoc]
    exact congrArg (c ^^^ ·) (by decide)
  have hshifts : shifts 8 0x100#16 = 0x1021#16 := by decide
  unfold crcByte
  rw [hbytes, shifts_xor, hshifts]

/-! ## Slots -/

/-- **The hash tag** of a key, if it has one. -/
def hashTag (key : List Char) : Option (List Char) :=
  match key.dropWhile (fun c => c ≠ '\x7b') with
  | [] => none
  | _ :: rest =>
    if '\x7d' ∈ rest ∧ rest.takeWhile (fun c => c ≠ '\x7d') ≠ [] then
      some (rest.takeWhile (fun c => c ≠ '\x7d'))
    else none

/-- What of a key is hashed. -/
def hashed (key : List Char) : List Char := (hashTag key).getD key

/-- The slot of a text, all of which is hashed. -/
def slotOf (text : List Char) : ℕ := (crc16 (text.flatMap String.utf8EncodeChar)).toNat % 16384

/-- **The slot of a key.** -/
def keyHashSlot (key : String) : ℕ := slotOf (hashed key.toList)

/-- **Texts that end in different digits** are in different slots. -/
theorem slotOf_ne_of_last (text : List Char) : slotOf (text ++ ['0']) ≠ slotOf (text ++ ['1']) := by
  have hcrc : ∀ (b : UInt8) (c : Char), String.utf8EncodeChar c = [b] →
      crc16 ((text ++ [c]).flatMap String.utf8EncodeChar)
        = crcByte (crc16 (text.flatMap String.utf8EncodeChar)) b := by
    intro b c hc
    rw [List.flatMap_append, List.flatMap_singleton, hc]
    exact List.foldl_append
  unfold slotOf
  rw [hcrc 48 '0' (by decide), hcrc 49 '1' (by decide), crcByte_zero_xor_one]
  generalize crcByte _ 48 = x
  intro heq
  have hbit : (x ^^^ 0x1021#16).toNat % 2 = x.toNat % 2 := by
    have := congrArg (· % 2) heq
    simpa only [Nat.mod_mod_of_dvd _ (by decide : 2 ∣ 16384), eq_comm] using this
  have hx : ∀ y : BitVec 16, y.toNat % 2 = (y.getLsbD 0).toNat := by
    intro y
    rw [BitVec.getLsbD, Nat.testBit_zero]
    rcases Nat.mod_two_eq_zero_or_one y.toNat with h | h <;> rw [h] <;> rfl
  rw [hx, hx, BitVec.getLsbD_xor] at hbit
  cases hlast : x.getLsbD 0 <;> rw [hlast] at hbit <;> exact absurd hbit (by decide)

/-! ## Tags -/

theorem dropWhile_eq_nil_of_notMem {c : Char} {cs : List Char} (h : c ∉ cs) :
    cs.dropWhile (fun d => d ≠ c) = [] := by
  refine List.dropWhile_eq_nil_iff.2 ?_
  intro d hd
  exact decide_eq_true (fun heq => h (heq ▸ hd))

/-- A key without an opening brace has no tag. -/
theorem hashTag_of_notMem {key : List Char} (h : '\x7b' ∉ key) : hashTag key = none := by
  unfold hashTag
  rw [dropWhile_eq_nil_of_notMem h]

/-- **A tag in front** is the tag. -/
theorem hashTag_of_tag {tag : List Char} (h : '\x7d' ∉ tag) (hne : tag ≠ []) (rest : List Char) :
    hashTag ('\x7b' :: (tag ++ '\x7d' :: rest)) = some tag := by
  have htake : (tag ++ '\x7d' :: rest).takeWhile (fun c => c ≠ '\x7d') = tag := by
    rw [List.takeWhile_append_of_pos, List.takeWhile_cons_of_neg (by decide), List.append_nil]
    intro c hc
    exact decide_eq_true (fun heq => h (heq ▸ hc))
  unfold hashTag
  rw [List.dropWhile_cons_of_neg (by decide)]
  dsimp only
  rw [htake, if_pos ⟨List.mem_append_right _ (List.mem_cons_self ..), hne⟩]

/-- Nothing between the braces is no tag. -/
theorem hashTag_of_empty (rest : List Char) : hashTag ('\x7b' :: '\x7d' :: rest) = none := by
  unfold hashTag
  rw [List.dropWhile_cons_of_neg (by decide)]
  dsimp only
  rw [List.takeWhile_cons_of_neg (by decide), if_neg (fun h => h.2 rfl)]

theorem notMem_of_hashTag {key tag : List Char} (h : hashTag key = some tag) :
    '\x7d' ∉ tag ∧ tag ≠ [] := by
  unfold hashTag at h
  split at h
  · cases h
  · split_ifs at h with hif
    cases h
    refine ⟨fun hmem => ?_, hif.2⟩
    have hne := List.mem_takeWhile_imp hmem
    simp at hne

/-- **No tag comes to be** when a text without braces is put behind a key without one. -/
theorem hashTag_append {key suffix : List Char} (h : hashTag key = none)
    (hopen : '\x7b' ∉ suffix) (hclose : '\x7d' ∉ suffix) : hashTag (key ++ suffix) = none := by
  by_cases hmem : '\x7b' ∈ key
  · obtain ⟨c, rest, hdrop⟩ : ∃ c rest, key.dropWhile (fun c => c ≠ '\x7b') = c :: rest := by
      refine List.exists_cons_of_ne_nil (fun hnil => ?_)
      exact of_decide_eq_true (List.dropWhile_eq_nil_iff.1 hnil _ hmem) rfl
    unfold hashTag at h ⊢
    rw [List.dropWhile_append, hdrop, List.isEmpty_cons, if_neg Bool.false_ne_true]
    rw [hdrop] at h
    dsimp only [List.cons_append] at h ⊢
    refine if_neg (fun hif => ?_)
    have hrest : '\x7d' ∈ rest := (List.mem_append.1 hif.1).resolve_right hclose
    have htake : rest.takeWhile (fun c => c ≠ '\x7d') = [] := by
      by_contra hne
      rw [if_pos ⟨hrest, hne⟩] at h
      cases h
    cases rest with
    | nil => cases hrest
    | cons d rest =>
      by_cases hd : d = '\x7d'
      · subst hd
        exact hif.2 (List.takeWhile_cons_of_neg (by decide))
      · rw [List.takeWhile_cons, if_pos (decide_eq_true hd)] at htake
        cases htake
  · refine hashTag_of_notMem (fun h => ?_)
    exact (List.mem_append.1 h).elim hmem hopen

end ClusterSlots

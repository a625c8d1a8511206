import AgoraPlugins.Redis.DlqSink
import AgoraPlugins.Urls

/-!
# The keys of the Redis DLQ

A DLQ has its records and its indexes under one prefix, and all its keys are texts joined by colons.
What an index is for is percent-encoded in its key, so that the colons there are those of the key,
and a key can be taken apart again: no two indexes have the same one.

What a record is named after is in its key as it is, and may have colons, or be `__index__`. But
there is always more of it: four colons and those of the name itself, where an index has three at
most. So no key is that of a record and of an index.
-/

open Url

namespace Dlq

namespace RedisKeyspace

/-! ## Percent-encoded texts -/

theorem toList_loop (bs : ByteArray) (i : ℕ) (r : List UInt8) :
    ByteArray.toList.loop bs i r = r.reverse ++ bs.data.toList.drop i := by
  fun_induction ByteArray.toList.loop bs i r with
  | case1 i r h ih =>
    have hi : i < bs.data.toList.length := h
    rw [ih, List.reverse_cons, List.append_assoc, List.drop_eq_getElem_cons hi]
    refine congrArg (fun b => r.reverse ++ ([b] ++ _)) ?_
    show bs.data[i]! = _
    rw [getElem!_pos bs.data i h]
    rfl
  | case2 i r h =>
    have hi : bs.data.toList.length ≤ i := Nat.not_lt.1 h
    rw [List.drop_eq_nil_of_le hi, List.append_nil]

theorem toUTF8_toList_injective : Function.Injective (fun s : String => s.toUTF8.toList) := by
  intro s t h
  have hbytes : s.toUTF8.data.toList = t.toUTF8.data.toList := by
    have hlist := h
    dsimp only at hlist
    unfold ByteArray.toList at hlist
    rw [toList_loop, toList_loop] at hlist
    exact hlist
  exact String.toByteArray_inj.1 (ByteArray.ext (Array.toList_inj.1 hbytes))

/-- A hexadecimal digit in upper case. -/
def upperDigit (n : ℕ) : Char := (Nat.digitChar n).toUpper

/-- **A byte** is written as its character, or as its digits after a percent sign. -/
theorem quoteByte_cases (b : UInt8) :
    (∃ c : Char, quoteByte b = [c] ∧ c.toNat = b.toNat ∧ c ≠ '%' ∧ c ≠ ':')
      ∨ quoteByte b = ['%', upperDigit (b.toNat / 16), upperDigit (b.toNat % 16)] := by
  unfold quoteByte
  dsimp only
  split_ifs with h
  · refine .inl ⟨_, rfl, ?_, ?_, ?_⟩
    · have hvalid : b.toNat.isValidChar := .inl (by omega)
      rw [Char.ofNat, dif_pos hvalid]
      rfl
    · intro hc
      rw [hc] at h
      exact absurd h.2 (by decide)
    · intro hc
      rw [hc] at h
      exact absurd h.2 (by decide)
  · exact .inr rfl

theorem upperDigit_inj : ∀ m < 16, ∀ n < 16, upperDigit m = upperDigit n → m = n := by decide

/-- **A byte is read back** from what it is encoded as, and so is what follows. -/
theorem quoteByte_append_inj {b b' : UInt8} {cs cs' : List Char}
    (h : quoteByte b ++ cs = quoteByte b' ++ cs') : b = b' ∧ cs = cs' := by
  rcases quoteByte_cases b with ⟨c, hc, hnat, hne, _⟩ | hc <;>
    rcases quoteByte_cases b' with ⟨c', hc', hnat', hne', _⟩ | hc' <;>
    rw [hc, hc'] at h
  · obtain ⟨rfl, hrest⟩ := List.cons.inj h
    exact ⟨UInt8.toNat_inj.1 (hnat.symm.trans hnat'), hrest⟩
  · exact absurd (List.cons.inj h).1 hne
  · exact absurd (List.cons.inj h).1.symm hne'
  · simp only [List.cons_append, List.nil_append, List.cons.injEq, true_and] at h
    have hb := b.toNat_lt
    have hb' := b'.toNat_lt
    have hhigh := upperDigit_inj _ (by omega) _ (by omega) h.1
    have hlow := upperDigit_inj _ (by omega) _ (by omega) h.2.1
    exact ⟨UInt8.toNat_inj.1 (by omega), h.2.2⟩

theorem flatMap_quoteByte_inj :
    ∀ {bs bs' : List UInt8}, bs.flatMap quoteByte = bs'.flatMap quoteByte → bs = bs'
  | [], [], _ => rfl
  | [], b :: bs, h => by
    rcases quoteByte_cases b with ⟨c, hc, _⟩ | hc <;> rw [List.flatMap_cons, hc] at h <;> cases h
  | b :: bs, [], h => by
    rcases quoteByte_cases b with ⟨c, hc, _⟩ | hc <;> rw [List.flatMap_cons, hc] at h <;> cases h
  | b :: bs, b' :: bs', h => by
    rw [List.flatMap_cons, List.flatMap_cons] at h
    obtain ⟨rfl, hrest⟩ := quoteByte_append_inj h
    rw [flatMap_quoteByte_inj hrest]

/-- **Percent-encoding keeps texts apart.** -/
theorem indexPart_injective : Function.Injective indexPart := fun _ _ h =>
  toUTF8_toList_injective (flatMap_quoteByte_inj (String.ofList_injective h))

/-- In a percent-encoded text there is no colon. -/
theorem colon_notMem_indexPart (value : String) : ':' ∉ (indexPart value).toList := by
  have hdigit : ∀ n < 16, upperDigit n ≠ ':' := by decide
  unfold indexPart
  rw [String.toList_ofList, List.mem_flatMap]
  rintro ⟨b, _, hb⟩
  have hlt := b.toNat_lt
  rcases quoteByte_cases b with ⟨c, hc, _, _, hne⟩ | hc
  · rw [hc, List.mem_singleton] at hb
    exact hne hb.symm
  · rw [hc] at hb
    simp only [List.mem_cons, List.not_mem_nil, or_false] at hb
    rcases hb with hb | hb | hb
    · exact absurd hb (by decide)
    · exact hdigit _ (by omega) hb.symm
    · exact hdigit _ (by omega) hb.symm

/-! ## Texts joined by colons -/

/-- Each part with a colon before it. -/
def joined (parts : List (List Char)) : List Char := parts.flatMap (fun part => ':' :: part)

/-- **Parts without colons** are read back. -/
theorem joined_inj :
    ∀ {parts parts' : List (List Char)}, (∀ part ∈ parts, ':' ∉ part) →
      (∀ part ∈ parts', ':' ∉ part) → joined parts = joined parts' → parts = parts'
  | [], [], _, _, _ => rfl
  | [], _ :: _, _, _, h => by cases h
  | _ :: _, [], _, _, h => by cases h
  | part :: parts, part' :: parts', hparts, hparts', h => by
    have hclass : ∀ p : List Char, ':' ∉ p → ∀ c ∈ p, decide (c ≠ ':') = true := fun p hp c hc =>
      decide_eq_true (fun heq => hp (heq ▸ hc))
    have hhead : ∀ ps, ∀ c ∈ (joined ps).head?, decide (c ≠ ':') = false := by
      intro ps c hc
      cases ps with
      | nil => cases hc
      | cons p ps =>
        cases hc
        rfl
    obtain ⟨rfl, hrest⟩ := append_inj_span (hclass part (hparts _ (List.mem_cons_self ..)))
      (hclass part' (hparts' _ (List.mem_cons_self ..))) (hhead parts) (hhead parts')
      (List.cons.inj h).2
    rw [joined_inj (fun p hp => hparts p (List.mem_cons_of_mem _ hp))
      (fun p hp => hparts' p (List.mem_cons_of_mem _ hp)) hrest]

theorem count_joined (parts : List (List Char)) :
    (joined parts).count ':' = parts.length + (parts.flatten).count ':' := by
  induction parts with
  | nil => rfl
  | cons part parts ih =>
    show (':' :: (part ++ joined parts)).count ':' = _
    rw [List.count_cons_self, List.count_append, ih, List.flatten_cons, List.count_append,
      List.length_cons]
    omega

/-! ## Index keys -/

/-- **What an index is of**, with its arguments. -/
inductive Index where
  | primary
  | pipeline (pipelineId : String)
  | stage (name : String)
  | pipelineStage (pipelineId name : String)
  deriving DecidableEq

namespace Index

/-- **The key of an index.** -/
def key (keyPrefix : String) : Index → String
  | primary => indexKey keyPrefix
  | pipeline pipelineId => pipelineIndexKey keyPrefix pipelineId
  | stage name => stageIndexKey keyPrefix name
  | pipelineStage pipelineId name => pipelineStageIndexKey keyPrefix pipelineId name

/-- What it consists of, after the prefix. -/
def parts : Index → List (List Char)
  | primary => ["__index__".toList]
  | pipeline pipelineId => ["__index__".toList, "pipeline".toList, (indexPart pipelineId).toList]
  | stage name => ["__index__".toList, "stage".toList, (indexPart name).toList]
  | pipelineStage pipelineId name =>
    ["__index__".toList, "pipeline_stage".toList, (indexPart pipelineId).toList,
      (indexPart name).toList]

theorem toList_key (keyPrefix : String) (i : Index) :
    (i.key keyPrefix).toList = keyPrefix.toList ++ joined i.parts := by
  cases i <;>
    simp [key, parts, joined, indexKey, pipelineIndexKey, stageIndexKey, pipelineStageIndexKey]

theorem colon_notMem_parts (i : Index) : ∀ part ∈ i.parts, ':' ∉ part := by
  have hindex : ':' ∉ "__index__".toList := by decide
  have hpipeline : ':' ∉ "pipeline".toList := by decide
  have hstage : ':' ∉ "stage".toList := by decide
  have hboth : ':' ∉ "pipeline_stage".toList := by decide
  cases i <;>
    simp only [parts, List.forall_mem_cons, List.not_mem_nil, false_imp_iff, implies_true,
      and_true]
  · exact hindex
  · exact ⟨hindex, hpipeline, colon_notMem_indexPart _⟩
  · exact ⟨hindex, hstage, colon_notMem_indexPart _⟩
  · exact ⟨hindex, hboth, colon_notMem_indexPart _, colon_notMem_indexPart _⟩

theorem length_parts_le (i : Index) : i.parts.length ≤ 4 := by
  cases i <;> simp [parts]

theorem parts_injective : Function.Injective parts := by
  have hpart : ∀ {x y : String}, (indexPart x).toList = (indexPart y).toList → x = y :=
    fun h => indexPart_injective (String.toList_inj.1 h)
  intro i j h
  cases i <;> cases j <;> simp only [parts, List.cons.injEq, and_true, true_and] at h
  · rfl
  · cases h
  · cases h
  · cases h
  · cases h
  · rw [hpart h]
  · exact absurd h.1 (by decide)
  · exact absurd h.1 (by decide)
  · cases h
  · exact absurd h.1 (by decide)
  · rw [hpart h]
  · exact absurd h.1 (by decide)
  · cases h
  · exact absurd h.1 (by decide)
  · exact absurd h.1 (by decide)
  · rw [hpart h.1, hpart h.2]

/-- **Indexes have keys of their own.** -/
theorem key_injective (keyPrefix : String) : Function.Injective (key keyPrefix) := by
  intro i j h
  have htext := congrArg String.toList h
  rw [toList_key, toList_key, List.append_cancel_left_eq] at htext
  exact parts_injective (joined_inj i.colon_notMem_parts j.colon_notMem_parts htext)

end Index

end RedisKeyspace

open RedisKeyspace

variable {δ : Type} (py : Python δ)

/-- A record has a key of its own that is not made here. -/
def DLQRecord.HasKey (r : DLQRecord δ) : Prop := ∃ k, r.storageId = some (.key k) ∧ k ≠ ""

/-- **A key that is made** has five colons at least after its prefix. -/
theorem toList_recordKey (keyPrefix : String) {r : DLQRecord δ} (h : ¬ r.HasKey) (uuid : String) :
    (recordKey py keyPrefix r uuid).toList = keyPrefix.toList ++ joined [r.pipelineId.toList,
      r.runId.toList, r.stage.toList, (py.isoformat r.createdAt).toList, uuid.toList] := by
  unfold recordKey
  dsimp only
  split
  · rename_i k hk
    have hempty : k = "" := by
      by_contra hne
      exact h ⟨k, hk, hne⟩
    rw [if_pos hempty]
    simp [RedisKeyspace.joined]
  · simp [RedisKeyspace.joined]
  · simp [RedisKeyspace.joined]

/-- **The keys of one prefix are apart**: those of different indexes, and that made for a record
from all of them. -/
theorem keys_apart (keyPrefix : String) :
    (∀ i j : Index, i.key keyPrefix = j.key keyPrefix → i = j)
      ∧ ∀ (r : DLQRecord δ) (uuid : String) (i : Index), ¬ r.HasKey →
        recordKey py keyPrefix r uuid ≠ i.key keyPrefix := by
  refine ⟨fun i j h => Index.key_injective keyPrefix h, fun r uuid i hr heq => ?_⟩
  have htext := congrArg String.toList heq
  rw [toList_recordKey py keyPrefix hr, Index.toList_key, List.append_cancel_left_eq] at htext
  have hcount := congrArg (List.count ':') htext
  have hnone : i.parts.flatten.count ':' = 0 := by
    refine List.count_eq_zero.2 (fun hmem => ?_)
    obtain ⟨part, hpart, hcolon⟩ := List.mem_flatten.1 hmem
    exact i.colon_notMem_parts part hpart hcolon
  have hle := i.length_parts_le
  rw [count_joined, count_joined, hnone, List.length_cons] at hcount
  simp only [List.length_cons] at hcount
  omega

/-- A record that has no key yet, from a pipeline that is named like an index. -/
def unkeyed : DLQRecord String where
  pipelineId := "index"
  runId := "pipeline"
  stage := "orders"
  errorType := "ValueError"
  errorMessage := "bad order"
  record := .null
  originalRecord := .null
  processedRecord := .null
  source := none
  checkpoint := .null
  details := .null
  middleware := none
  sink := none
  createdAt := "2024-01-01T00:00:00+00:00"
  attempt := 0
  maxAttempts := none
  storageId := none

/-- The key that is made for it is that of no index. -/
theorem keys_apart_unkeyed : ¬ unkeyed.HasKey
    ∧ ∀ i : Index, recordKey .ofTexts "agora:dlq" unkeyed "7f3c" ≠ i.key "agora:dlq" := by
  have hkey : ¬ unkeyed.HasKey := by
    rintro ⟨k, hk, _⟩
    cases hk
  exact ⟨hkey, fun i => (keys_apart .ofTexts "agora:dlq").2 unkeyed "7f3c" i hkey⟩

end Dlq

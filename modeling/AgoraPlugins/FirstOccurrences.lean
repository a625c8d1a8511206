import Mathlib.Data.List.Induction
import Mathlib.Data.List.Nodup

/-!
# First occurrences

A list without its repetitions (`List.eraseDups`) has each member where it occurs first. So one more
member at the end of a list is either there already, or comes last of all, and a map that keeps the
members apart keeps their order.
-/

namespace FirstOccurrences

variable {α β : Type*} [BEq α] [LawfulBEq α] [BEq β] [LawfulBEq β]

/-- A member that is there already changes nothing. -/
theorem eraseDups_concat_of_mem {l : List α} {a : α} (h : a ∈ l) :
    (l ++ [a]).eraseDups = l.eraseDups := by
  rw [List.eraseDups_append]
  simp [List.removeAll, h]

/-- A new member comes last. -/
theorem eraseDups_concat_of_not_mem {l : List α} {a : α} (h : a ∉ l) :
    (l ++ [a]).eraseDups = l.eraseDups ++ [a] := by
  rw [List.eraseDups_append]
  simp [List.removeAll, h, List.eraseDups_cons]

/-- **There is nothing twice.** -/
theorem nodup_eraseDups (l : List α) : l.eraseDups.Nodup := by
  induction l using List.reverseRecOn with
  | nil => exact List.nodup_nil
  | append_singleton l a ih =>
    by_cases ha : a ∈ l
    · rw [eraseDups_concat_of_mem ha]
      exact ih
    · rw [eraseDups_concat_of_not_mem ha, List.nodup_append_comm]
      exact List.nodup_cons.2 ⟨fun hmem => ha (List.mem_eraseDups.1 hmem), ih⟩

/-- **The order is kept** by a map that keeps the members apart. -/
theorem eraseDups_map {f : α → β} (l : List α) (h : ∀ a ∈ l, ∀ b ∈ l, f a = f b → a = b) :
    (l.map f).eraseDups = l.eraseDups.map f := by
  induction l using List.reverseRecOn with
  | nil => rfl
  | append_singleton l a ih =>
    have hlast : a ∈ l ++ [a] := List.mem_append_right _ (List.mem_singleton_self a)
    have hmem : f a ∈ l.map f ↔ a ∈ l := by
      refine ⟨fun hfa => ?_, List.mem_map_of_mem⟩
      obtain ⟨b, hb, hfb⟩ := List.mem_map.1 hfa
      rw [← h b (List.mem_append_left _ hb) a hlast hfb]
      exact hb
    have ih := ih (fun a ha b hb =>
      h a (List.mem_append_left _ ha) b (List.mem_append_left _ hb))
    rw [List.map_append, List.map_singleton]
    by_cases ha : a ∈ l
    · rw [eraseDups_concat_of_mem (hmem.2 ha), eraseDups_concat_of_mem ha, ih]
    · rw [eraseDups_concat_of_not_mem (fun hfa => ha (hmem.1 hfa)),
        eraseDups_concat_of_not_mem ha, List.map_append, List.map_singleton, ih]

end FirstOccurrences

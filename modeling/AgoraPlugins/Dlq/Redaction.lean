import AgoraPlugins.Dlq.Policy

/-!
# Redacting twice

A value that was redacted is in some places redacted once more. Nothing changes then, unless
the name of a header is itself a list or a dict: such a name is redacted inside, and its text
may have become a sensitive name by that. Where no header name of the policy is the text of a
list or a dict, redaction is idempotent (`redactValue_redactValue`).

Redaction takes values in normal form to values in normal form, so JSON keeps what it gives.
-/

namespace Dlq

variable {δ : Type} (py : Python δ)

/-- Lists and dicts. -/
def isContainer : Json → Bool
  | .arr _ | .obj _ => true
  | .null | .bool _ | .num _ | .float _ | .str _ | .other _ => false

/-- No name is the text of a list or a dict. -/
def Plain (names : List String) : Prop :=
  ∀ v, isContainer v = true → py.normalize (str py v) ∉ names

section Redaction

variable {py} {headers : List String} {rv : String}

/-! ## Normal forms -/

theorem normalMembers_assign {key : String} {v : Json} (hv : v.normal = v) :
    ∀ {members : Payload}, Json.normalMembers members = members →
      Json.normalMembers (Json.assign key v members) = Json.assign key v members
  | [], _ => by rw [Json.assign, Json.normalMembers, hv, Json.normalMembers]
  | (k, w) :: members, h => by
    have hfilter : ∀ {members : Payload}, Json.normalMembers members = members →
        Json.normalMembers (members.filter (fun m => m.1 ≠ key))
          = members.filter (fun m => m.1 ≠ key) := by
      intro members
      induction members with
      | nil => exact fun h => h
      | cons m members ih =>
        intro h
        obtain ⟨hm, hmembers⟩ := List.cons.inj h
        rw [List.filter_cons]
        split
        next => rw [Json.normalMembers, hm, ih hmembers]
        next => exact ih hmembers
    obtain ⟨hm, hmembers⟩ := List.cons.inj h
    rw [Json.assign]
    split
    next => rw [Json.normalMembers, hv, hfilter hmembers]
    next => rw [Json.normalMembers, hm, normalMembers_assign hv hmembers]

mutual
/-- What redaction makes of a value in normal form is in normal form. -/
theorem normal_redactValue (fields : List String) (parentKey : Option String) : ∀ {v : Json},
    v.normal = v → (redactValue py headers rv fields parentKey v).normal
      = redactValue py headers rv fields parentKey v
  | .obj members, h => by
    rw [redactValue, Json.normal, normalMembers_redactMembers fields (Json.obj.inj h)]
  | .arr items, h => by
    rw [redactValue]
    split
    next => rw [Json.normal, normalItems_redactHeaderItems (Json.arr.inj h)]
    next => rw [Json.normal, normalItems_redactItems fields parentKey (Json.arr.inj h)]
  | .null, _ => rfl
  | .bool _, _ => rfl
  | .num _, _ => rfl
  | .float _, _ => rfl
  | .str _, _ => rfl
  | .other _, h => nomatch h

theorem normalMembers_redactMembers (fields : List String) : ∀ {members : Payload},
    Json.normalMembers members = members →
      Json.normalMembers (redactMembers py headers rv fields members)
        = redactMembers py headers rv fields members
  | [], _ => rfl
  | (k, v) :: members, h => by
    obtain ⟨hm, hmembers⟩ := List.cons.inj h
    rw [redactMembers, Json.normalMembers, normalMembers_redactMembers fields hmembers]
    split
    next => rfl
    next => rw [normal_redactValue fields _ (Prod.mk.inj hm).2]

theorem normalItems_redactItems (fields : List String) (parentKey : Option String) :
    ∀ {items : List Json}, Json.normalItems items = items →
      Json.normalItems (redactItems py headers rv fields parentKey items)
        = redactItems py headers rv fields parentKey items
  | [], _ => rfl
  | v :: items, h => by
    obtain ⟨hv, hitems⟩ := List.cons.inj h
    rw [redactItems, Json.normalItems, normal_redactValue fields parentKey hv,
      normalItems_redactItems fields parentKey hitems]

theorem normalItems_redactHeaderItems : ∀ {items : List Json}, Json.normalItems items = items →
    Json.normalItems (redactHeaderItems py headers rv items) = redactHeaderItems py headers rv items
  | [], _ => rfl
  | .obj members :: items, h => by
    obtain ⟨hv, hitems⟩ := List.cons.inj h
    rw [redactHeaderItems, Json.normalItems, normalItems_redactHeaderItems hitems]
    split
    next => rw [Json.normal, normalMembers_assign rfl (Json.obj.inj hv)]
    next => rw [Json.normal, normalMembers_redactMembers [] (Json.obj.inj hv)]
  | .arr items' :: items, h => by
    obtain ⟨hv, hitems⟩ := List.cons.inj h
    simp only [redactHeaderItems, Json.normalItems, hv, normalItems_redactHeaderItems hitems]
  | .null :: items, h | .bool _ :: items, h | .num _ :: items, h | .float _ :: items, h
  | .str _ :: items, h | .other _ :: items, h => by
    obtain ⟨hv, hitems⟩ := List.cons.inj h
    simp only [redactHeaderItems, Json.normalItems, hv, normalItems_redactHeaderItems hitems]
end

/-! ## Redacting once more -/

/-- A member of what is redacted. -/
theorem find_redactMembers (fields : List String) (key : String) (members : Payload) :
    Json.find key (redactMembers py headers rv fields members)
      = (Json.find key members).map (fun v => if py.normalize key ∈ fields then .str rv
          else redactValue py headers rv fields (some (py.normalize key)) v) := by
  induction members with
  | nil => rfl
  | cons m members ih =>
    obtain ⟨k, v⟩ := m
    rw [redactMembers, Json.find, Json.find, ih]
    cases Json.find key members with
    | some w => rfl
    | none =>
      dsimp only [Option.map_none]
      split
      next hk =>
        rw [hk]
        rfl
      next => rfl

/-- Only a list or a dict gets another text, and it is one then. -/
theorem redactValue_eq_or (fields : List String) (parentKey : Option String) (v : Json) :
    redactValue py headers rv fields parentKey v = v
      ∨ isContainer (redactValue py headers rv fields parentKey v) = true := by
  cases v with
  | arr items =>
    rw [redactValue]
    split <;> exact .inr rfl
  | obj members => exact .inr rfl
  | null | bool b | num n | float x | str s | other text => exact .inl rfl

/-- **A header that is not sensitive stays so.** -/
theorem key_redactMembers_notMem (hplain : Plain py headers) {members : Payload}
    (h : py.normalize (str py ((Json.find "key" members).getD (.str ""))) ∉ headers) :
    py.normalize (str py ((Json.find "key" (redactMembers py headers rv [] members)).getD
      (.str ""))) ∉ headers := by
  rw [find_redactMembers]
  cases hfind : Json.find "key" members with
  | none =>
    rw [hfind] at h
    exact h
  | some v =>
    rw [hfind] at h
    rw [Option.map_some, Option.getD_some, if_neg (List.not_mem_nil)]
    rcases redactValue_eq_or [] (some (py.normalize "key")) v with heq | hcontainer
    · rw [heq]
      exact h
    · exact hplain _ hcontainer

mutual
/-- **Redaction is idempotent** where no header name is the text of a list or a dict. -/
theorem redactValue_redactValue (hplain : Plain py headers) (fields : List String)
    (parentKey : Option String) : ∀ v : Json,
    redactValue py headers rv fields parentKey (redactValue py headers rv fields parentKey v)
      = redactValue py headers rv fields parentKey v
  | .obj members => by
    rw [redactValue, redactValue, redactMembers_redactMembers hplain fields members]
  | .arr items => by
    rw [redactValue]
    split
    next hparent =>
      rw [redactValue, if_pos hparent, redactHeaderItems_redactHeaderItems hplain items]
    next hparent =>
      rw [redactValue, if_neg hparent, redactItems_redactItems hplain fields parentKey items]
  | .null => rfl
  | .bool _ => rfl
  | .num _ => rfl
  | .float _ => rfl
  | .str _ => rfl
  | .other _ => rfl

theorem redactMembers_redactMembers (hplain : Plain py headers) (fields : List String) :
    ∀ members : Payload,
      redactMembers py headers rv fields (redactMembers py headers rv fields members)
        = redactMembers py headers rv fields members
  | [] => rfl
  | (k, v) :: members => by
    rw [redactMembers, redactMembers, redactMembers_redactMembers hplain fields members]
    split
    next => rfl
    next => rw [redactValue_redactValue hplain fields _ v]

theorem redactItems_redactItems (hplain : Plain py headers) (fields : List String)
    (parentKey : Option String) : ∀ items : List Json,
      redactItems py headers rv fields parentKey (redactItems py headers rv fields parentKey items)
        = redactItems py headers rv fields parentKey items
  | [] => rfl
  | v :: items => by
    rw [redactItems, redactItems, redactValue_redactValue hplain fields parentKey v,
      redactItems_redactItems hplain fields parentKey items]

theorem redactHeaderItems_redactHeaderItems (hplain : Plain py headers) : ∀ items : List Json,
    redactHeaderItems py headers rv (redactHeaderItems py headers rv items)
      = redactHeaderItems py headers rv items
  | [] => rfl
  | .obj members :: items => by
    rw [redactHeaderItems]
    split
    next hkey =>
      -- the name of the header is not touched
      rw [redactHeaderItems, Json.find_assign_ne (by decide), if_pos hkey, Json.assign_assign,
        redactHeaderItems_redactHeaderItems hplain items]
    next hkey =>
      rw [redactHeaderItems, if_neg (key_redactMembers_notMem hplain hkey),
        redactMembers_redactMembers hplain [] members,
        redactHeaderItems_redactHeaderItems hplain items]
  | .arr items' :: items => by
    simp only [redactHeaderItems, redactHeaderItems_redactHeaderItems hplain items]
  | .null :: items | .bool _ :: items | .num _ :: items | .float _ :: items | .str _ :: items
  | .other _ :: items => by
    simp only [redactHeaderItems, redactHeaderItems_redactHeaderItems hplain items]
end

end Redaction

end Dlq

import AgoraPlugins.Dlq.Redaction

/-!
# What redaction reaches

A value is *clean* if nothing stands under a sensitive name: a sensitive field has the text
that is put in place of values, and so has a sensitive header in each of the three forms that
headers have below a key `headers` – a member of a dict, an item with its name and its value,
and a pair of both.

Redaction looks for fields everywhere but among the items of a list of headers, and for headers
only among the dicts of such a list. What it leaves is clean if and only if what it does not
look at was clean before (`clean_redactValue`).
-/

namespace Dlq

variable {δ : Type} (py : Python δ)

section Coverage

variable (sensitive headers : List String) (rv : String)

/-- The text in place of a value. -/
def hidden : Json → Bool
  | .str s => s = rv
  | _ => false

/-- The dict in place of the value of a header: `_redacted_header_value`. -/
def isPlaceholder : Json → Bool
  | .obj members => members.length = 2 && (Json.find "data" members).any (hidden rv)
      && (Json.find "encoding" members).any (hidden "redacted")
  | _ => false

/-- A member with one of these names is hidden. -/
def hiddenMember (names : List String) (k : String) (v : Json) : Bool :=
  py.normalize k ∉ names || hidden rv v

/-- A text that is the name of a sensitive header. -/
def namesHeader : Json → Bool
  | .str s => py.normalize s ∈ headers
  | _ => false

/-- A sensitive header in an item. -/
def isSensitiveItem (members : Payload) : Bool :=
  (Json.find "key" members).any (namesHeader py headers)

/-- A pair of a name and a value that is hidden if the name is sensitive. -/
def hiddenPair : Json → Bool
  | .arr [name, v] => !namesHeader py headers name || hidden rv v
  | _ => true

/-- The names that must not show in a dict below a key. -/
def namesBelow (parentKey : Option String) : List String :=
  if parentKey = some "headers" then sensitive ++ headers else sensitive

mutual
/-- **Nothing stands under a sensitive name**, in a value below a key in normal form. -/
def clean (parentKey : Option String) : Json → Bool
  | .obj members => cleanMembers parentKey members
  | .arr items =>
    if parentKey = some "headers" then cleanHeaderItems items else cleanItems parentKey items
  | .null | .bool _ | .num _ | .float _ | .str _ | .other _ => true

def cleanMembers (parentKey : Option String) : List (String × Json) → Bool
  | [] => true
  | (k, v) :: members =>
    hiddenMember py rv (namesBelow sensitive headers parentKey) k v
      && clean (some (py.normalize k)) v && cleanMembers parentKey members

def cleanItems (parentKey : Option String) : List Json → Bool
  | [] => true
  | v :: items => clean parentKey v && cleanItems parentKey items

def cleanHeaderItems : List Json → Bool
  | [] => true
  | .obj members :: items =>
    cleanEntries (isSensitiveItem py headers members) members && cleanHeaderItems items
  | v :: items => hiddenPair py headers rv v && clean none v && cleanHeaderItems items

/-- The entries of a header. -/
def cleanEntries (named : Bool) : List (String × Json) → Bool
  | [] => true
  | (k, v) :: entries =>
    (k = "value" && isPlaceholder rv v
      || (hiddenMember py rv sensitive k v && (!(named && k = "value") || hidden rv v))
        && clean (some (py.normalize k)) v)
      && cleanEntries named entries
end

/-! ## What is not looked at -/

/-- The header is one that the search takes for sensitive, by the text of its name. -/
def isFoundItem (members : Payload) : Bool :=
  py.normalize (str py ((Json.find "key" members).getD (.str ""))) ∈ headers

/-- The entries of a sensitive header but its value. -/
def cleanBesideValue (entries : Payload) : Bool :=
  entries.all (fun m => m.1 = "value"
    || hiddenMember py rv sensitive m.1 m.2
      && clean py sensitive headers rv (some (py.normalize m.1)) m.2)

mutual
/-- **Nothing stands under a sensitive name where the search for `fields` does not look.** -/
def sheltered (fields : List String) (parentKey : Option String) : Json → Bool
  | .obj members => shelteredMembers fields parentKey members
  | .arr items =>
    if parentKey = some "headers" then shelteredHeaderItems items
    else shelteredItems fields parentKey items
  | .null | .bool _ | .num _ | .float _ | .str _ | .other _ => true

def shelteredMembers (fields : List String) (parentKey : Option String) :
    List (String × Json) → Bool
  | [] => true
  | (k, v) :: members =>
    (py.normalize k ∈ fields
      || hiddenMember py rv (namesBelow sensitive headers parentKey) k v
        && sheltered fields (some (py.normalize k)) v)
      && shelteredMembers fields parentKey members

def shelteredItems (fields : List String) (parentKey : Option String) : List Json → Bool
  | [] => true
  | v :: items => sheltered fields parentKey v && shelteredItems fields parentKey items

/-- A sensitive header keeps its other entries, and in any other header no field is looked
for. What is no dict stays as it is. -/
def shelteredHeaderItems : List Json → Bool
  | [] => true
  | .obj members :: items =>
    (if isFoundItem py headers members then cleanBesideValue py sensitive headers rv members
      else shelteredEntries members) && shelteredHeaderItems items
  | v :: items =>
    hiddenPair py headers rv v && clean py sensitive headers rv none v
      && shelteredHeaderItems items

def shelteredEntries : List (String × Json) → Bool
  | [] => true
  | (k, v) :: entries =>
    (k = "value" && isPlaceholder rv v
      || hiddenMember py rv sensitive k v && sheltered [] (some (py.normalize k)) v)
      && shelteredEntries entries
end

end Coverage

section Redacted

variable {py} {sensitive headers : List String} {rv : String}

/-! ## What stands in place of a value stays -/

theorem hidden_redactValue (text : String) (fields : List String) (parentKey : Option String)
    (v : Json) : hidden text (redactValue py headers rv fields parentKey v) = hidden text v := by
  cases v with
  | arr items =>
    rw [redactValue]
    split <;> rfl
  | obj members => rfl
  | null | bool b | num n | float x | str s | other text => rfl

theorem namesHeader_redactValue (fields : List String) (parentKey : Option String) (v : Json) :
    namesHeader py headers (redactValue py headers rv fields parentKey v)
      = namesHeader py headers v := by
  cases v with
  | arr items =>
    rw [redactValue]
    split <;> rfl
  | obj members => rfl
  | null | bool b | num n | float x | str s | other text => rfl

theorem length_redactMembers (fields : List String) (members : Payload) :
    (redactMembers py headers rv fields members).length = members.length := by
  induction members with
  | nil => rfl
  | cons m members ih =>
    obtain ⟨k, v⟩ := m
    rw [redactMembers, List.length_cons, List.length_cons, ih]

/-- A member that is looked at for headers only. -/
theorem any_find_redactMembers {p : Json → Bool}
    (hp : ∀ parentKey v, p (redactValue py headers rv [] parentKey v) = p v) (key : String)
    (members : Payload) :
    (Json.find key (redactMembers py headers rv [] members)).any p
      = (Json.find key members).any p := by
  rw [find_redactMembers]
  cases Json.find key members with
  | none => rfl
  | some v =>
    rw [Option.map_some, if_neg List.not_mem_nil]
    exact hp _ v

theorem isPlaceholder_redactValue (parentKey : Option String) (v : Json) :
    isPlaceholder rv (redactValue py headers rv [] parentKey v) = isPlaceholder rv v := by
  cases v with
  | obj members =>
    rw [redactValue, isPlaceholder, isPlaceholder, length_redactMembers,
      any_find_redactMembers (hidden_redactValue rv []),
      any_find_redactMembers (hidden_redactValue "redacted" [])]
  | arr items =>
    rw [redactValue]
    split <;> rfl
  | null | bool b | num n | float x | str s | other text => rfl

theorem isSensitiveItem_redactMembers (members : Payload) :
    isSensitiveItem py headers (redactMembers py headers rv [] members)
      = isSensitiveItem py headers members :=
  any_find_redactMembers (namesHeader_redactValue []) "key" members

/-- A sensitive header is found. -/
theorem isFoundItem_of_isSensitiveItem {members : Payload}
    (h : isSensitiveItem py headers members = true) : isFoundItem py headers members = true := by
  unfold isSensitiveItem at h
  unfold isFoundItem
  cases hfind : Json.find "key" members with
  | none =>
    rw [hfind] at h
    cases h
  | some v =>
    rw [hfind] at h
    cases v with
    | str s => exact h
    | null | bool b | num n | float x | other text | arr items | obj members => cases h

/-- **The value of a sensitive header is replaced**, and nothing else of it. -/
theorem cleanEntries_assign (named : Bool) (members : Payload) :
    cleanEntries py sensitive headers rv named (Json.assign "value"
        (.obj [("data", .str rv), ("encoding", .str "redacted")]) members)
      = cleanBesideValue py sensitive headers rv members := by
  have hplaceholder : isPlaceholder rv
      (.obj [("data", .str rv), ("encoding", .str "redacted")]) = true := by
    simp [isPlaceholder, Json.find, hidden]
  have hentry : ∀ {k : String} {v : Json} {entries : Payload}, k ≠ "value" →
      cleanEntries py sensitive headers rv named ((k, v) :: entries)
        = ((hiddenMember py rv sensitive k v
          && clean py sensitive headers rv (some (py.normalize k)) v)
          && cleanEntries py sensitive headers rv named entries) := by
    intro k v entries hk
    rw [cleanEntries]
    simp [hk]
  have hfilter : ∀ members : Payload,
      cleanEntries py sensitive headers rv named (members.filter (fun m => m.1 ≠ "value"))
        = cleanBesideValue py sensitive headers rv members := by
    intro members
    induction members with
    | nil => rfl
    | cons m members ih =>
      obtain ⟨k, v⟩ := m
      unfold cleanBesideValue at ih ⊢
      rw [List.filter_cons, List.all_cons, ← ih]
      by_cases hk : k = "value"
      · simp [hk]
      · rw [if_pos (by simp [hk]), hentry hk]
        simp [hk]
  induction members with
  | nil => simp [Json.assign, cleanEntries, hplaceholder, cleanBesideValue]
  | cons m members ih =>
    obtain ⟨k, v⟩ := m
    rw [Json.assign]
    by_cases hk : k = "value"
    · rw [if_pos hk, cleanEntries, hfilter members]
      simp [hk, hplaceholder, cleanBesideValue]
    · rw [if_neg hk, hentry hk, ih]
      simp [hk, cleanBesideValue]

/-! ## What is left -/

mutual
/-- **What redaction leaves is clean if and only if what it does not look at was.** -/
theorem clean_redactValue (fields : List String) (parentKey : Option String) : ∀ v : Json,
    clean py sensitive headers rv parentKey (redactValue py headers rv fields parentKey v)
      = sheltered py sensitive headers rv fields parentKey v
  | .obj members => by
    rw [redactValue, clean, sheltered, cleanMembers_redactMembers fields parentKey members]
  | .arr items => by
    rw [redactValue, sheltered]
    split
    next hparent =>
      rw [clean, if_pos hparent, cleanHeaderItems_redactHeaderItems items]
    next hparent =>
      rw [clean, if_neg hparent, cleanItems_redactItems fields parentKey items]
  | .null => rfl
  | .bool _ => rfl
  | .num _ => rfl
  | .float _ => rfl
  | .str _ => rfl
  | .other _ => rfl

theorem cleanMembers_redactMembers (fields : List String) (parentKey : Option String) :
    ∀ members : Payload,
      cleanMembers py sensitive headers rv parentKey (redactMembers py headers rv fields members)
        = shelteredMembers py sensitive headers rv fields parentKey members
  | [] => rfl
  | (k, v) :: members => by
    rw [redactMembers, cleanMembers, shelteredMembers,
      cleanMembers_redactMembers fields parentKey members]
    by_cases hk : py.normalize k ∈ fields
    · -- the field is replaced
      rw [if_pos hk, decide_eq_true hk]
      simp [hiddenMember, hidden, clean]
    · rw [if_neg hk, decide_eq_false hk, clean_redactValue fields _ v]
      unfold hiddenMember
      rw [hidden_redactValue, Bool.false_or]

theorem cleanItems_redactItems (fields : List String) (parentKey : Option String) :
    ∀ items : List Json,
      cleanItems py sensitive headers rv parentKey
          (redactItems py headers rv fields parentKey items)
        = shelteredItems py sensitive headers rv fields parentKey items
  | [] => rfl
  | v :: items => by
    rw [redactItems, cleanItems, shelteredItems, clean_redactValue fields parentKey v,
      cleanItems_redactItems fields parentKey items]

theorem cleanHeaderItems_redactHeaderItems : ∀ items : List Json,
    cleanHeaderItems py sensitive headers rv (redactHeaderItems py headers rv items)
      = shelteredHeaderItems py sensitive headers rv items
  | [] => rfl
  | .obj members :: items => by
    rw [redactHeaderItems, shelteredHeaderItems]
    by_cases hfound : isFoundItem py headers members = true
    · rw [if_pos hfound, if_pos (of_decide_eq_true hfound), cleanHeaderItems,
        cleanEntries_assign, cleanHeaderItems_redactHeaderItems items]
    · have hsensitive : isSensitiveItem py headers members = false :=
        Bool.eq_false_iff.mpr (fun h => hfound (isFoundItem_of_isSensitiveItem h))
      rw [if_neg hfound, if_neg (fun h => hfound (decide_eq_true h)), cleanHeaderItems,
        isSensitiveItem_redactMembers, hsensitive, cleanEntries_redactMembers members,
        cleanHeaderItems_redactHeaderItems items]
  | .arr items' :: items => by
    simp only [redactHeaderItems, cleanHeaderItems, shelteredHeaderItems,
      cleanHeaderItems_redactHeaderItems items]
  | .null :: items | .bool _ :: items | .num _ :: items | .float _ :: items | .str _ :: items
  | .other _ :: items => by
    simp only [redactHeaderItems, cleanHeaderItems, shelteredHeaderItems,
      cleanHeaderItems_redactHeaderItems items]

/-- The entries of a header that is not sensitive. -/
theorem cleanEntries_redactMembers : ∀ members : Payload,
    cleanEntries py sensitive headers rv false (redactMembers py headers rv [] members)
      = shelteredEntries py sensitive headers rv members
  | [] => rfl
  | (k, v) :: members => by
    rw [redactMembers, if_neg List.not_mem_nil, cleanEntries, shelteredEntries,
      isPlaceholder_redactValue, clean_redactValue [] _ v, cleanEntries_redactMembers members]
    unfold hiddenMember
    rw [hidden_redactValue]
    simp
end

/-- **Redaction of a payload** leaves nothing under a sensitive name if and only if nothing stood
there where it does not look. -/
theorem clean_apply_iff (policy : DLQPayloadPolicy) (hmode : policy.mode = .redacted)
    (payload : Payload) :
    clean py sensitive (policy.headerNames py) policy.redactedValue none
        (.obj (policy.apply py payload)) = true
      ↔ sheltered py sensitive (policy.headerNames py) policy.redactedValue
        (policy.fieldNames py) none (.obj payload) = true := by
  unfold DLQPayloadPolicy.apply
  rw [hmode, ← clean_redactValue, redactValue]

end Redacted

end Dlq

import AgoraPlugins.Dict
import AgoraPlugins.Fallible
import AgoraPlugins.Reply

/-!
# The results of a message batch

A batch comes back as items in any order, each with the custom id of its request.
`completion_responses_from_batch_results` reads them into a map, and then takes from the map what
belongs to each id that is expected, in the order of these ids.

It raises if an item has no id or the id of an earlier one, if its request did not succeed, if it
has no message or one that cannot be converted, and if an expected id has no item. None of this
depends on the order of the items (`AnthropicResponseSurface.completionResponses_spec`).
-/

/-! ## What the client returns -/

/-- **A value of the client library**: of a dict or an object, what `bool` and `str` make of it, and
what is in it. -/
inductive AnthropicValue where
  | none
  | str (s : String)
  | dict (truthy : Bool) (text : String) (entries : List (String × AnthropicValue))
  | object (truthy : Bool) (text : String) (attributes : List (String × AnthropicValue))

namespace AnthropicValue

/-- `bool`. -/
def truthy : AnthropicValue → Bool
  | none => false
  | str s => s ≠ ""
  | dict truthy _ _ | object truthy _ _ => truthy

/-- `str`. -/
def text : AnthropicValue → String
  | none => "None"
  | str s => s
  | dict _ text _ | object _ text _ => text

/-- What is not `None`. -/
def toOption : AnthropicValue → Option AnthropicValue
  | none => Option.none
  | value => some value

/-- **`get_field`.** Neither `None` nor a `str` has an attribute that is asked for here. -/
def getField (value : AnthropicValue) (name : String) (default : AnthropicValue) :
    AnthropicValue :=
  match value with
  | none | str _ => default
  | dict _ _ entries => (entries.lookup name).getD default
  | object _ _ attributes => (attributes.lookup name).getD default

/-- `str(get_field(value, name, "") or "")`. -/
def textField (value : AnthropicValue) (name : String) : String :=
  if (value.getField name (.str "")).truthy then (value.getField name (.str "")).text else ""

end AnthropicValue

/-- The metadata of a response of a batch. -/
structure BatchMetadata where
  anthropicMessageBatch : Bool
  anthropicMessageBatchId : String
  anthropicCustomId : String
  deriving DecidableEq

/-- **The surface**, with what it makes of a message and its metadata, and how a text is quoted in
errors. -/
structure AnthropicResponseSurface (R : Type) where
  completionResponseFromMessage : AnthropicValue → BatchMetadata → Except Exc R
  repr : String → String

namespace AnthropicResponseSurface

variable {R : Type} (surface : AnthropicResponseSurface R) (batchId : String)

/-- **`format_batch_result_error`.** -/
def formatBatchResultError (result : AnthropicValue) : String :=
  match result.getField "error" .none with
  | .none => "no error detail"
  | .str error => error
  | error =>
    match error.getField "message" .none, error.getField "type" .none with
    | .none, _ | _, .none => error.text
    | message, errorType => errorType.text ++ ": " ++ message.text

def valueError (text : String) : Exc := .exception "ValueError" ("AnthropicProvider: " ++ text)

def runtimeError (text : String) : Exc := .exception "RuntimeError" ("AnthropicProvider: " ++ text)

/-- `item.custom_id`. -/
def customId (item : AnthropicValue) : String := item.textField "custom_id"

def metadata (item : AnthropicValue) : BatchMetadata := ⟨true, batchId, customId item⟩

/-- One turn of the loop over the items. -/
def readItem (byCustomId : Dict String R) (item : AnthropicValue) : Except Exc (Dict String R) :=
  if customId item = "" then .error (valueError "Message Batch result is missing custom_id.")
  else if customId item ∈ byCustomId then
    .error (valueError ("duplicate Message Batch result custom_id="
      ++ surface.repr (customId item) ++ "."))
  else
    let result := item.getField "result" .none
    if result.textField "type" ≠ "succeeded" then
      .error (runtimeError ("Message Batch request " ++ surface.repr (customId item)
        ++ " failed with result_type=" ++ surface.repr (result.textField "type") ++ ": "
        ++ formatBatchResultError result))
    else
      match (result.getField "message" .none).toOption with
      | none => .error (valueError ("succeeded Message Batch result "
          ++ surface.repr (customId item) ++ " is missing message."))
      | some message => do
        let response ← surface.completionResponseFromMessage message (metadata batchId item)
        pure (byCustomId.insert (customId item) response)

/-- A list of texts in an error. -/
def reprList (texts : List String) : String :=
  "[" ++ ", ".intercalate (texts.map surface.repr) ++ "]"

/-- `by_custom_id[custom_id]`. -/
def lookupResponse (byCustomId : Dict String R) (id : String) : Except Exc R :=
  match byCustomId.lookup id with
  | some response => .ok response
  | none => .error (.exception "KeyError" (surface.repr id))

/-- **`completion_responses_from_batch_results`.** -/
def completionResponsesFromBatchResults (items : List AnthropicValue)
    (expectedCustomIds : List String) : Except Exc (List R) := do
  let byCustomId ← items.foldlM (surface.readItem batchId) ∅
  let missing := expectedCustomIds.filter (fun id => id ∉ byCustomId)
  if missing ≠ [] then
    .error (runtimeError ("Message Batch results missing expected custom_ids: "
      ++ surface.reprList missing ++ "."))
  else expectedCustomIds.mapM (surface.lookupResponse byCustomId)

/-! ## What is expected of the items -/

/-- **The message of an item** that succeeded. -/
def messageOf (item : AnthropicValue) : Option AnthropicValue :=
  if (item.getField "result" .none).textField "type" = "succeeded" then
    ((item.getField "result" .none).getField "message" .none).toOption
  else none

/-- **An item converts** to a response: it succeeded, with a message that is converted. -/
def Converts (item : AnthropicValue) (response : R) : Prop :=
  ∃ message, messageOf item = some message
    ∧ surface.completionResponseFromMessage message (metadata batchId item) = .ok response

/-- **The items are what a batch is to return**: each with an id of its own and with a message that
is converted. -/
structure WellFormed (items : List AnthropicValue) : Prop where
  ne_empty : ∀ item ∈ items, customId item ≠ ""
  nodup : (items.map customId).Nodup
  converts : ∀ item ∈ items, ∃ response, surface.Converts batchId item response

/-- The response of the item with this id. -/
def ResponseOf (items : List AnthropicValue) (id : String) (response : R) : Prop :=
  ∃ item ∈ items, customId item = id ∧ surface.Converts batchId item response

variable {surface batchId}

theorem Converts.unique {item : AnthropicValue} {r r' : R} (h : surface.Converts batchId item r)
    (h' : surface.Converts batchId item r') : r = r' := by
  obtain ⟨message, hmessage, hr⟩ := h
  obtain ⟨message', hmessage', hr'⟩ := h'
  obtain rfl := Option.some.inj (hmessage.symm.trans hmessage')
  exact Except.ok.inj (hr.symm.trans hr')

/-! ## The loop -/

/-- **One item is read** if it has an id that is new, and converts. -/
theorem readItem_eq_ok_iff {byCustomId byCustomId' : Dict String R} {item : AnthropicValue} :
    surface.readItem batchId byCustomId item = .ok byCustomId'
      ↔ customId item ≠ "" ∧ customId item ∉ byCustomId
        ∧ ∃ response, surface.Converts batchId item response
          ∧ byCustomId' = byCustomId.insert (customId item) response := by
  unfold readItem Converts messageOf
  dsimp only
  by_cases hid : customId item = ""
  · rw [if_pos hid]
    exact iff_of_false (fun h => by cases h) (fun h => h.1 hid)
  rw [if_neg hid]
  by_cases hmem : customId item ∈ byCustomId
  · rw [if_pos hmem]
    exact iff_of_false (fun h => by cases h) (fun h => h.2.1 hmem)
  rw [if_neg hmem]
  by_cases htype : (item.getField "result" .none).textField "type" = "succeeded"
  · rw [if_neg (not_not.2 htype), if_pos htype]
    cases ((item.getField "result" .none).getField "message" .none).toOption with
    | none =>
      refine iff_of_false (fun h => by cases h) ?_
      rintro ⟨_, _, _, ⟨_, hnone, _⟩, _⟩
      cases hnone
    | some message =>
      dsimp only
      rw [Fallible.bind_eq_ok_iff]
      constructor
      · rintro ⟨response, hresponse, hinsert⟩
        exact ⟨hid, hmem, response, ⟨message, rfl, hresponse⟩, (Except.ok.inj hinsert).symm⟩
      · rintro ⟨_, _, response, ⟨_, hmessage, hresponse⟩, rfl⟩
        obtain rfl := Option.some.inj hmessage
        exact ⟨response, hresponse, rfl⟩
  · rw [if_pos htype, if_neg htype]
    refine iff_of_false (fun h => by cases h) ?_
    rintro ⟨_, _, _, ⟨_, hnone, _⟩, _⟩
    cases hnone

/-- **All items are read** if they are what a batch is to return, and none has an id that is there
already. By induction on the items. -/
theorem exists_foldlM_readItem_iff {items : List AnthropicValue} {byCustomId : Dict String R} :
    (∃ d, items.foldlM (surface.readItem batchId) byCustomId = .ok d)
      ↔ surface.WellFormed batchId items ∧ ∀ item ∈ items, customId item ∉ byCustomId := by
  induction items generalizing byCustomId with
  | nil =>
    refine iff_of_true ⟨byCustomId, rfl⟩ ⟨⟨?_, List.nodup_nil, ?_⟩, ?_⟩
    all_goals exact fun _ h => absurd h List.not_mem_nil
  | cons item items ih =>
    simp only [List.foldlM_cons, Fallible.bind_eq_ok_iff]
    constructor
    · rintro ⟨d, byCustomId', hread, hrest⟩
      obtain ⟨hne, hnew, response, hconverts, rfl⟩ := readItem_eq_ok_iff.1 hread
      obtain ⟨hwell, hfresh⟩ := ih.1 ⟨d, hrest⟩
      have hapart : ∀ other ∈ items, customId other ≠ customId item
          ∧ customId other ∉ byCustomId := fun other hother =>
        not_or.1 (fun h => hfresh other hother (AList.mem_insert _ |>.2 h))
      refine ⟨⟨List.forall_mem_cons.2 ⟨hne, hwell.ne_empty⟩, ?_,
        List.forall_mem_cons.2 ⟨⟨response, hconverts⟩, hwell.converts⟩⟩,
        List.forall_mem_cons.2 ⟨hnew, fun other hother => (hapart other hother).2⟩⟩
      rw [List.map_cons, List.nodup_cons]
      refine ⟨fun hmem => ?_, hwell.nodup⟩
      obtain ⟨other, hother, heq⟩ := List.mem_map.1 hmem
      exact (hapart other hother).1 heq
    · rintro ⟨hwell, hfresh⟩
      have hnodup := hwell.nodup
      rw [List.map_cons, List.nodup_cons] at hnodup
      obtain ⟨response, hconverts⟩ := hwell.converts item List.mem_cons_self
      have hrest := (@ih (byCustomId.insert (customId item) response)).2
        ⟨⟨fun other hother => hwell.ne_empty other (List.mem_cons_of_mem _ hother), hnodup.2,
          fun other hother => hwell.converts other (List.mem_cons_of_mem _ hother)⟩,
        fun other hother hmem => by
          rcases (AList.mem_insert _).1 hmem with heq | hmem
          · exact hnodup.1 (List.mem_map.2 ⟨other, hother, heq⟩)
          · exact hfresh other (List.mem_cons_of_mem _ hother) hmem⟩
      obtain ⟨d, hd⟩ := hrest
      exact ⟨d, _, readItem_eq_ok_iff.2 ⟨hwell.ne_empty item List.mem_cons_self,
        hfresh item List.mem_cons_self, response, hconverts, rfl⟩, hd⟩

/-- **What is in the map**: what was there, and the response of each item under its id. -/
theorem lookup_of_foldlM_readItem {items : List AnthropicValue} {byCustomId d : Dict String R}
    (h : items.foldlM (surface.readItem batchId) byCustomId = .ok d) (id : String)
    (response : R) : d.lookup id = some response
      ↔ byCustomId.lookup id = some response ∨ surface.ResponseOf batchId items id response := by
  induction items generalizing byCustomId with
  | nil =>
    obtain rfl := Except.ok.inj h
    refine (or_iff_left ?_).symm
    rintro ⟨item, hitem, _⟩
    exact List.not_mem_nil hitem
  | cons item items ih =>
    have hfresh := (exists_foldlM_readItem_iff.1 ⟨d, h⟩).2 item List.mem_cons_self
    rw [List.foldlM_cons, Fallible.bind_eq_ok_iff] at h
    obtain ⟨byCustomId', hread, hrest⟩ := h
    obtain ⟨_, hnew, response', hconverts, rfl⟩ := readItem_eq_ok_iff.1 hread
    have hsplit : surface.ResponseOf batchId (item :: items) id response
        ↔ (customId item = id ∧ surface.Converts batchId item response)
          ∨ surface.ResponseOf batchId items id response := by
      unfold ResponseOf
      simp only [List.mem_cons, or_and_right, exists_or, exists_eq_left]
    rw [ih hrest, hsplit, ← or_assoc]
    refine or_congr_left ?_
    by_cases heq : id = customId item
    · subst heq
      rw [AList.lookup_insert, AList.lookup_eq_none.2 hnew, Option.some.injEq]
      constructor
      · rintro rfl
        exact .inr ⟨rfl, hconverts⟩
      · rintro (hnone | ⟨_, hconverts'⟩)
        · cases hnone
        · exact hconverts.unique hconverts'
    · rw [AList.lookup_insert_ne heq]
      exact (or_iff_left (fun h => heq h.1.symm)).symm

/-! ## The batch -/

/-- **What is returned, and when.** -/
theorem completionResponses_eq_ok_iff {items : List AnthropicValue}
    {expectedCustomIds : List String} {responses : List R} :
    surface.completionResponsesFromBatchResults batchId items expectedCustomIds = .ok responses
      ↔ surface.WellFormed batchId items
        ∧ List.Forall₂ (surface.ResponseOf batchId items) expectedCustomIds responses := by
  unfold completionResponsesFromBatchResults
  rw [Fallible.bind_eq_ok_iff]
  have hlookup : ∀ {d : Dict String R} {id : String} {response : R},
      items.foldlM (surface.readItem batchId) ∅ = .ok d →
      (surface.lookupResponse d id = .ok response
        ↔ surface.ResponseOf batchId items id response) := by
    intro d id response hd
    have hiff := lookup_of_foldlM_readItem hd id response
    rw [AList.lookup_empty] at hiff
    unfold lookupResponse
    cases hentry : d.lookup id with
    | none =>
      rw [hentry] at hiff
      refine iff_of_false (fun h => by cases h) (fun h => ?_)
      cases hiff.2 (.inr h)
    | some response' =>
      rw [hentry, Option.some.injEq] at hiff
      rw [Except.ok.injEq, hiff]
      exact or_iff_right (fun h => by cases h)
  constructor
  · rintro ⟨d, hd, hrest⟩
    refine ⟨(exists_foldlM_readItem_iff.1 ⟨d, hd⟩).1, ?_⟩
    dsimp only at hrest
    split_ifs at hrest with hmissing
    exact (Fallible.mapM_eq_ok_iff.1 hrest).imp (fun _ _ h => (hlookup hd).1 h)
  · rintro ⟨hwell, hall⟩
    obtain ⟨d, hd⟩ := exists_foldlM_readItem_iff.2
      ⟨hwell, fun item _ => AList.notMem_empty (customId item)⟩
    refine ⟨d, hd, ?_⟩
    have hresponses := hall.imp (fun _ _ h => (hlookup hd).2 h)
    have hmissing : expectedCustomIds.filter (fun id => id ∉ d) = [] := by
      rw [List.filter_eq_nil_iff]
      intro id hid
      obtain ⟨response, hresponse⟩ := Fallible.exists_forall₂_iff.1 ⟨responses, hall⟩ id hid
      have hentry := (lookup_of_foldlM_readItem hd id response).2 (.inr hresponse)
      have hmem : id ∈ d := AList.lookup_isSome.1 (by rw [hentry]; rfl)
      exact fun h => of_decide_eq_true h hmem
    dsimp only
    rw [if_neg (not_not.2 hmissing)]
    exact Fallible.mapM_eq_ok_iff.2 hresponses

theorem WellFormed.perm {items items' : List AnthropicValue}
    (h : surface.WellFormed batchId items) (hperm : items.Perm items') :
    surface.WellFormed batchId items' :=
  ⟨fun item hitem => h.ne_empty item (hperm.mem_iff.2 hitem), (hperm.map _).nodup_iff.1 h.nodup,
    fun item hitem => h.converts item (hperm.mem_iff.2 hitem)⟩

theorem ResponseOf.perm {items items' : List AnthropicValue} {id : String} {response : R}
    (h : surface.ResponseOf batchId items id response) (hperm : items.Perm items') :
    surface.ResponseOf batchId items' id response := by
  obtain ⟨item, hitem, h⟩ := h
  exact ⟨item, hperm.mem_iff.1 hitem, h⟩

/-- **The results of a batch**: they are returned if the items are what a batch is to return and
every id that is expected is among theirs, each id with the response of its own item, and the same
for every order of the items. -/
theorem completionResponses_spec (surface : AnthropicResponseSurface R) (batchId : String)
    (items : List AnthropicValue) (expectedCustomIds : List String) :
    ((∃ responses, surface.completionResponsesFromBatchResults batchId items expectedCustomIds
        = .ok responses)
      ↔ surface.WellFormed batchId items
        ∧ ∀ id ∈ expectedCustomIds, ∃ item ∈ items, customId item = id)
      ∧ (∀ responses, surface.completionResponsesFromBatchResults batchId items expectedCustomIds
          = .ok responses →
        List.Forall₂ (surface.ResponseOf batchId items) expectedCustomIds responses)
      ∧ ∀ items', items.Perm items' → ∀ responses,
        surface.completionResponsesFromBatchResults batchId items expectedCustomIds = .ok responses
          ↔ surface.completionResponsesFromBatchResults batchId items' expectedCustomIds
            = .ok responses := by
  refine ⟨?_, fun responses h => (completionResponses_eq_ok_iff.1 h).2, ?_⟩
  · simp only [completionResponses_eq_ok_iff, exists_and_left]
    refine and_congr_right (fun hwell => ?_)
    rw [Fallible.exists_forall₂_iff]
    refine forall₂_congr (fun id hid => ?_)
    constructor
    · rintro ⟨_, item, hitem, heq, _⟩
      exact ⟨item, hitem, heq⟩
    · rintro ⟨item, hitem, heq⟩
      obtain ⟨response, hconverts⟩ := hwell.converts item hitem
      exact ⟨response, item, hitem, heq, hconverts⟩
  · intro items' hperm responses
    rw [completionResponses_eq_ok_iff, completionResponses_eq_ok_iff]
    constructor
    · exact fun h => ⟨h.1.perm hperm, h.2.imp (fun _ _ h => h.perm hperm)⟩
    · exact fun h => ⟨h.1.perm hperm.symm, h.2.imp (fun _ _ h => h.perm hperm.symm)⟩

end AnthropicResponseSurface

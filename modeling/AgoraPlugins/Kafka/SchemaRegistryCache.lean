import AgoraPlugins.Kafka.ProtoSchema
import AgoraPlugins.Kafka.SchemaRegistryWire
import AgoraPlugins.LruOrder
import AgoraPlugins.Machine

/-!
# The caches of the Protobuf deserializer

The deserializer keeps the schemas that it has fetched from the registry, by their ids, and the
pairs of a schema id and message indexes that it has found to be bound to its message type. Both are
bounded, and what goes out of them is what was used least recently.

A lookup says with `None` that a key is not there. But `None` is also the value of every binding: no
lookup of one ever finds it, and each message has its binding validated again. Its schema is fetched
once.
-/

open Machine Lru SchemaRegistryWire ProtoTokens ProtoSchema

/-! ## The cache helpers -/

section Helpers

variable {κ ν : Type} [DecidableEq κ]

/-- **`lru_cache_get`**, on values that may be `None`. -/
def lruCacheGet (cache : Dict κ (Option ν)) (key : κ) : Option ν × Dict κ (Option ν) :=
  match (cache.lookup key).join with
  | none => (none, cache)
  | some value => (some value, cache.moveToEnd key)

/-- **`lru_cache_put`**, with the keys that its loop takes out: as many as there are too many. -/
def lruCachePut (cache : Dict κ (Option ν)) (key : κ) (value : Option ν) (maxEntries : ℕ) :
    List κ × Dict κ (Option ν) :=
  let cache := (cache.setItem key value).moveToEnd key
  cache.popFirsts (cache.keys.length - maxEntries)

/-- **A cache** of what has to be made. The history only records what happens to it. -/
structure LruCache (κ ν : Type) where
  entries : Dict κ (Option ν)
  history : List (Op κ)

namespace LruCache

def empty : LruCache κ ν := ⟨∅, []⟩

variable (cache : LruCache κ ν)

/-- What is found is used. -/
def get (key : κ) : Option ν × LruCache κ ν :=
  match lruCacheGet cache.entries key with
  | (none, entries) => (none, ⟨entries, cache.history⟩)
  | (some value, entries) => (some value, ⟨entries, .used key :: cache.history⟩)

/-- What has been made is put in. -/
def put (key : κ) (value : Option ν) (maxEntries : ℕ) : LruCache κ ν where
  entries := (lruCachePut cache.entries key value maxEntries).2
  history := (lruCachePut cache.entries key value maxEntries).1.foldl
    (fun history evicted => .evicted evicted :: history) (.made key :: cache.history)

/-- **A cache is kept** if it has what is held, in the order of the last uses, and not too much of
it. -/
structure Kept (maxEntries : ℕ) : Prop where
  tracks : Tracks cache.entries.keys cache.history
  size : cache.entries.keys.length ≤ maxEntries

variable {cache} {maxEntries : ℕ}

omit [DecidableEq κ] in
theorem kept_empty : (empty : LruCache κ ν).Kept maxEntries := ⟨tracks_nil, Nat.zero_le _⟩

/-- What is found or not. -/
theorem get_cases (key : κ) : (cache.entries.lookup key).join = none ∧ cache.get key = (none, cache)
    ∨ ∃ value, (cache.entries.lookup key).join = some value ∧ key ∈ cache.entries ∧ cache.get key
      = (some value, ⟨cache.entries.moveToEnd key, .used key :: cache.history⟩) := by
  unfold get lruCacheGet
  cases h : (cache.entries.lookup key).join with
  | none => exact .inl ⟨rfl, rfl⟩
  | some value =>
    refine .inr ⟨value, rfl, AList.lookup_isSome.1 ?_, rfl⟩
    rw [Option.join_eq_some_iff.1 h]
    rfl

theorem Kept.get (h : cache.Kept maxEntries) (key : κ) : (cache.get key).2.Kept maxEntries := by
  obtain ⟨_, hget⟩ | ⟨value, _, hmem, hget⟩ := cache.get_cases key
  · rw [hget]
    exact h
  · rw [hget]
    have hkeys := Dict.keys_moveToEnd hmem
    refine ⟨hkeys ▸ h.tracks.uses (.inr ⟨rfl, hmem⟩), ?_⟩
    rw [hkeys, List.length_append, List.length_erase_of_mem hmem, List.length_singleton,
      Nat.sub_add_cancel (List.length_pos_of_mem hmem)]
    exact h.size

omit [DecidableEq κ] in
/-- Taking out the first entries. -/
theorem tracks_popFirsts {d : Dict κ (Option ν)} {history : List (Op κ)} (n : ℕ)
    (h : Tracks d.keys history) : Tracks (d.popFirsts n).2.keys
      ((d.popFirsts n).1.foldl (fun history evicted => .evicted evicted :: history) history)
      ∧ (d.popFirsts n).2.keys.length = d.keys.length - n := by
  induction n generalizing d history with
  | zero => exact ⟨h, rfl⟩
  | succ n ih =>
    unfold Dict.popFirsts
    split
    · rename_i hkeys
      refine ⟨h, ?_⟩
      rw [hkeys, List.length_nil, Nat.zero_sub]
    · rename_i k keys hkeys
      rw [hkeys] at h ⊢
      obtain ⟨htracks, hlength⟩ := @ih d.popFirst (.evicted k :: history)
        (by rw [Dict.keys_popFirst, hkeys]; exact h.evict)
      refine ⟨htracks, ?_⟩
      rw [hlength, Dict.keys_popFirst, hkeys, List.tail_cons, List.length_cons,
        Nat.add_sub_add_right]

theorem Kept.put (h : cache.Kept maxEntries) (key : κ) (value : Option ν) :
    (cache.put key value maxEntries).Kept maxEntries := by
  have htracks : Tracks (cache.entries.append key value).keys (.made key :: cache.history) :=
    Dict.keys_append _ key value ▸ h.tracks.uses (.inl rfl)
  unfold LruCache.put lruCachePut
  rw [Dict.moveToEnd_setItem]
  obtain ⟨hkept, hlength⟩ := tracks_popFirsts
    ((cache.entries.append key value).keys.length - maxEntries) htracks
  refine ⟨hkept, ?_⟩
  rw [hlength]
  omega

omit [DecidableEq κ] in
theorem entries_popFirsts_subset (d : Dict κ (Option ν)) (n : ℕ) :
    (d.popFirsts n).2.entries ⊆ d.entries := by
  induction n generalizing d with
  | zero => exact List.Subset.refl _
  | succ n ih =>
    unfold Dict.popFirsts
    split
    · exact List.Subset.refl _
    · exact List.Subset.trans (ih d.popFirst) (List.tail_subset _)

/-- No value gets into a cache but what is put there. -/
theorem value_of_mem_put {key : κ} {value : Option ν} {e : Σ _ : κ, Option ν}
    (he : e ∈ (cache.put key value maxEntries).entries.entries) :
    e.2 = value ∨ e ∈ cache.entries.entries := by
  unfold put lruCachePut at he
  rw [Dict.moveToEnd_setItem] at he
  rcases List.mem_append.1 (entries_popFirsts_subset _ _ he) with he | he
  · exact .inr ((List.kerase_sublist key _).subset he)
  · exact .inl (congrArg Sigma.snd (List.mem_singleton.1 he))

theorem value_of_mem_get {key : κ} {e : Σ _ : κ, Option ν}
    (he : e ∈ (cache.get key).2.entries.entries) : e ∈ cache.entries.entries := by
  obtain ⟨_, hget⟩ | ⟨value, hvalue, _, hget⟩ := cache.get_cases key
  · rw [hget] at he
    exact he
  · rw [hget] at he
    have hlookup := Option.join_eq_some_iff.1 hvalue
    have hmoved : (cache.entries.moveToEnd key).entries
        = cache.entries.entries.kerase key ++ [⟨key, some value⟩] := by
      rw [Dict.moveToEnd, hlookup]
      rfl
    rcases List.mem_append.1 (hmoved ▸ he) with he | he
    · exact (List.kerase_sublist key _).subset he
    · rw [List.mem_singleton.1 he]
      exact AList.mem_lookup_iff.1 hlookup

/-- What has a value is found. -/
theorem join_lookup_ne_none {key : κ} (hvalues : ∀ e ∈ cache.entries.entries, e.2 ≠ none)
    (hmem : key ∈ cache.entries) : (cache.entries.lookup key).join ≠ none := by
  obtain ⟨value, hvalue⟩ := Option.isSome_iff_exists.1 (AList.lookup_isSome.2 hmem)
  rw [hvalue]
  exact hvalues _ (AList.mem_lookup_iff.1 hvalue)

omit [DecidableEq κ] in
/-- Evictions make nothing. -/
theorem madeOnce_evicted (evicted : List κ) (history : List (Op κ)) :
    MadeOnce (evicted.foldl (fun history evicted => .evicted evicted :: history) history)
      ↔ MadeOnce history := by
  induction evicted generalizing history with
  | nil => exact Iff.rfl
  | cons k evicted ih =>
    rw [List.foldl_cons, ih, madeOnce_cons_iff]
    exact and_iff_left (by rintro _ ⟨⟩)

theorem madeOnce_get (key : κ) :
    MadeOnce (cache.get key).2.history ↔ MadeOnce cache.history := by
  obtain ⟨_, hget⟩ | ⟨value, _, _, hget⟩ := cache.get_cases key
  · rw [hget]
  · rw [hget]
    refine madeOnce_cons_iff.trans (and_iff_left ?_)
    rintro _ ⟨⟩

/-- **What is put in is made once** just when it is not there. -/
theorem Kept.madeOnce_put (h : cache.Kept maxEntries) (key : κ) (value : Option ν) :
    MadeOnce (cache.put key value maxEntries).history
      ↔ MadeOnce cache.history ∧ key ∉ cache.entries := by
  refine (madeOnce_evicted _ _).trans (madeOnce_cons_iff.trans (and_congr_right (fun _ => ?_)))
  constructor
  · exact fun hnot hmem => hnot key rfl ((h.tracks.held key).2 hmem)
  · rintro hnot k ⟨⟩ hheld
    exact hnot ((h.tracks.held key).1 hheld)

end LruCache

end Helpers

/-! ## The deserializer -/

/-- What the registry knows of a schema. -/
structure RegisteredSchema where
  schema : List Char
  schemaType : String

/-- **A message class**: the `full_name` of its `DESCRIPTOR`, if it has one and that is a string,
and its `ParseFromString`. -/
structure MessageType (M : Type) where
  fullName : Option (Option Token)
  parseFromString : List UInt8 → Except Exc M

/-- `repr` of a name. -/
def reprName (name : Token) : String := "'" ++ String.ofList name ++ "'"

/-- **`protobuf_message_full_name`.** -/
def protobufMessageFullName {M : Type} (messageType : MessageType M) : Except Exc Token :=
  match messageType.fullName with
  | none => .error (.exception "TypeError" ("Protobuf schema-registry integration requires a "
      ++ "protobuf message class with DESCRIPTOR."))
  | some none | some (some []) => .error (.exception "TypeError"
      "Protobuf message class DESCRIPTOR.full_name must be a non-empty string.")
  | some (some (c :: name)) => .ok (c :: name)

/-- **`validate_protobuf_schema_binding`.** -/
def validateProtobufSchemaBinding {M : Type} (unicodeWord : Char → Bool) (schemaText : List Char)
    (messageType : MessageType M) (messageIndexes : List ℤ) : Except Exc Unit := do
  let expectedFullName ←
    (resolveProtoMessageFullName unicodeWord schemaText messageIndexes).mapError valueError
  let actualFullName ← protobufMessageFullName messageType
  if expectedFullName ≠ actualFullName then
    .error (valueError ("Protobuf schema-registry binding mismatch: payload indexes "
      ++ reprIndexes messageIndexes ++ " resolve to " ++ reprName expectedFullName
      ++ ", but local message_type is " ++ reprName actualFullName ++ "."))
  else .ok ⟨⟩

/-- **A deserializer.** Without a record mapper, what is mapped is the message itself. -/
structure ProtobufSchemaRegistryDeserializer (M T : Type) where
  unicodeWord : Char → Bool
  messageType : MessageType M
  recordMapper : M → Except Exc T
  schemaCacheMaxEntries : ℕ
  one_le_schemaCacheMaxEntries : 1 ≤ schemaCacheMaxEntries

/-- A schema id and message indexes. -/
abbrev BindingKey := ℤ × List ℤ

/-- **The two caches.** The type of the second one's values is that of `None`. -/
structure SchemaCaches where
  registeredSchemas : LruCache ℤ RegisteredSchema
  validatedBindings : LruCache BindingKey Empty

def SchemaCaches.empty : SchemaCaches := ⟨.empty, .empty⟩

/-- A payload, and what the registry answers if it is asked. -/
structure Payload where
  value : List UInt8
  reply : Except Exc RegisteredSchema

/-- The key of a binding; no indexes are those of the first message. -/
def bindingKey (p : Prefix) : BindingKey :=
  match p.messageIndexes with
  | none | some [] => (p.schemaId, [0])
  | some (index :: indexes) => (p.schemaId, index :: indexes)

namespace ProtobufSchemaRegistryDeserializer

variable {M T : Type} (d : ProtobufSchemaRegistryDeserializer M T)

/-- The schema, from its cache or from the registry. -/
def registered (s : SchemaCaches) (schemaId : ℤ) (reply : Except Exc RegisteredSchema) :
    Except Exc RegisteredSchema × SchemaCaches :=
  match s.registeredSchemas.get schemaId with
  | (some registered, schemas) => (.ok registered, { s with registeredSchemas := schemas })
  | (none, schemas) =>
    match reply with
    | .error e => (.error e, { s with registeredSchemas := schemas })
    | .ok registered =>
      (.ok registered, { s with
        registeredSchemas := schemas.put schemaId (some registered) d.schemaCacheMaxEntries })

/-- The binding is validated, if it is not in its cache. -/
def validated (s : SchemaCaches) (registered : RegisteredSchema) (key : BindingKey) :
    Except Exc Unit × SchemaCaches :=
  match s.validatedBindings.get key with
  | (some _, bindings) => (.ok ⟨⟩, { s with validatedBindings := bindings })
  | (none, bindings) =>
    match validateProtobufSchemaBinding d.unicodeWord registered.schema d.messageType key.2 with
    | .error e => (.error e, { s with validatedBindings := bindings })
    | .ok _ =>
      (.ok ⟨⟩, { s with
        validatedBindings := bindings.put key none d.schemaCacheMaxEntries })

/-- **`__call__`.** -/
def call (s : SchemaCaches) (payload : Payload) : Except Exc T × SchemaCaches :=
  match decodeConfluentPrefix payload.value true with
  | .error e => (.error e, s)
  | .ok p =>
    match d.registered s p.schemaId payload.reply with
    | (.error e, s) => (.error e, s)
    | (.ok registered, s) =>
      if registered.schemaType ≠ "PROTOBUF" then
        (.error (valueError ("Schema id " ++ toString p.schemaId ++ " is registered as "
          ++ reprName registered.schemaType.toList ++ ", not 'PROTOBUF'.")), s)
      else
        match d.validated s registered (bindingKey p) with
        | (.error e, s) => (.error e, s)
        | (.ok _, s) =>
          ((d.messageType.parseFromString (payload.value.drop p.payloadOffset)).bind
            d.recordMapper, s)

/-- One payload after the other. -/
def step (s : SchemaCaches) (payload : Payload) : Option SchemaCaches := some (d.call s payload).2

/-! ## What the caches are for -/

/-- **What caching is to do**: nothing is fetched or validated twice without having been evicted in
between, neither cache is too large, and what is evicted is what was used least recently. -/
structure Caches (s : SchemaCaches) : Prop where
  fetchedOnce : MadeOnce s.registeredSchemas.history
  validatedOnce : MadeOnce s.validatedBindings.history
  schemas : s.registeredSchemas.entries.keys.length ≤ d.schemaCacheMaxEntries
  bindings : s.validatedBindings.entries.keys.length ≤ d.schemaCacheMaxEntries
  evictsSchemas : EvictsLeastRecent s.registeredSchemas.history
  evictsBindings : EvictsLeastRecent s.validatedBindings.history

/-- **A payload whose binding is validated again**: it is in the cache, and the payload comes to
its validation, which succeeds. -/
def Revalidates (s : SchemaCaches) (payload : Payload) : Prop :=
  ∃ p registered, decodeConfluentPrefix payload.value true = .ok p
    ∧ (s.registeredSchemas.entries.lookup p.schemaId).join.or payload.reply.toOption
      = some registered
    ∧ registered.schemaType = "PROTOBUF"
    ∧ validateProtobufSchemaBinding d.unicodeWord registered.schema d.messageType (bindingKey p).2
      = .ok ()
    ∧ bindingKey p ∈ s.validatedBindings.entries

/-- **The caches are kept**, and no schema is `None`. -/
structure KeepsCaches (s : SchemaCaches) : Prop where
  schemas : s.registeredSchemas.Kept d.schemaCacheMaxEntries
  bindings : s.validatedBindings.Kept d.schemaCacheMaxEntries
  fetchedOnce : MadeOnce s.registeredSchemas.history
  values : ∀ e ∈ s.registeredSchemas.entries.entries, e.2 ≠ none

variable {d} {s : SchemaCaches}

theorem KeepsCaches.trace_iff (h : d.KeepsCaches s) :
    d.Caches s ↔ MadeOnce s.validatedBindings.history :=
  ⟨fun hcaches => hcaches.validatedOnce, fun hmade => ⟨h.fetchedOnce, hmade, h.schemas.size,
    h.bindings.size, h.schemas.tracks.evicts, h.bindings.tracks.evicts⟩⟩

/-- **The schema** is what the cache has, or what the registry answers. -/
theorem registered_spec (h : d.KeepsCaches s) (schemaId : ℤ)
    (reply : Except Exc RegisteredSchema) :
    (d.registered s schemaId reply).1.toOption
        = (s.registeredSchemas.entries.lookup schemaId).join.or reply.toOption
      ∧ d.KeepsCaches (d.registered s schemaId reply).2
      ∧ (d.registered s schemaId reply).2.validatedBindings = s.validatedBindings := by
  unfold registered
  obtain ⟨hnone, hget⟩ | ⟨registered, hsome, _, hget⟩ := s.registeredSchemas.get_cases schemaId
  · rw [hget, hnone, Option.none_or]
    cases reply with
    | error e => exact ⟨rfl, h, rfl⟩
    | ok registered =>
      refine ⟨rfl, ⟨h.schemas.put _ _, h.bindings, ?_, fun e he => ?_⟩, rfl⟩
      · -- no schema is `None`, so what is not found is not there
        refine (h.schemas.madeOnce_put _ _).2 ⟨h.fetchedOnce, fun hmem => ?_⟩
        exact LruCache.join_lookup_ne_none h.values hmem hnone
      · rcases LruCache.value_of_mem_put he with hvalue | he
        · rw [hvalue]
          rintro ⟨⟩
        · exact h.values e he
  · have hkept := h.schemas.get schemaId
    have hmade := (LruCache.madeOnce_get schemaId).2 h.fetchedOnce
    have hvalues := fun e he => h.values e (@LruCache.value_of_mem_get _ _ _ _ schemaId e he)
    rw [hget] at hkept hmade hvalues
    rw [hget, hsome, Option.some_or]
    exact ⟨rfl, ⟨hkept, h.bindings, hmade, hvalues⟩, rfl⟩

/-- **The binding** is validated each time, as its cache never says that it has it. -/
theorem validated_spec (h : d.KeepsCaches s) (registered : RegisteredSchema) (key : BindingKey) :
    d.KeepsCaches (d.validated s registered key).2
      ∧ (MadeOnce (d.validated s registered key).2.validatedBindings.history
        ↔ MadeOnce s.validatedBindings.history
          ∧ ¬ (validateProtobufSchemaBinding d.unicodeWord registered.schema d.messageType key.2
              = .ok () ∧ key ∈ s.validatedBindings.entries)) := by
  unfold validated
  obtain ⟨hnone, hget⟩ | ⟨value, _⟩ := s.validatedBindings.get_cases key
  · rw [hget]
    cases hbinds : validateProtobufSchemaBinding d.unicodeWord registered.schema d.messageType
        key.2 with
    | error e => exact ⟨h, (and_iff_left (by rintro ⟨⟨⟩, _⟩)).symm⟩
    | ok _ =>
      refine ⟨⟨h.schemas, h.bindings.put _ _, h.fetchedOnce, h.values⟩, ?_⟩
      refine (h.bindings.madeOnce_put _ _).trans (and_congr_right (fun _ => not_congr ?_))
      exact (and_iff_right rfl).symm
  · exact value.elim

theorem toOption_eq_some_iff {ε α : Type} {x : Except ε α} {a : α} :
    x.toOption = some a ↔ x = .ok a :=
  ⟨eq_ok_of_toOption, fun h => h ▸ rfl⟩

/-- What it comes to, in the order of the call. -/
theorem revalidates_iff (h : d.KeepsCaches s) {payload : Payload} {p : Prefix}
    (hdecodes : decodeConfluentPrefix payload.value true = .ok p) :
    d.Revalidates s payload ↔ ∃ registered,
      (d.registered s p.schemaId payload.reply).1 = .ok registered
        ∧ registered.schemaType = "PROTOBUF"
        ∧ validateProtobufSchemaBinding d.unicodeWord registered.schema d.messageType
          (bindingKey p).2 = .ok ()
        ∧ bindingKey p ∈ s.validatedBindings.entries := by
  have hschema := (registered_spec h p.schemaId payload.reply).1
  constructor
  · rintro ⟨p', registered, hdecodes', hregistered, hrest⟩
    obtain rfl := Except.ok.inj (hdecodes.symm.trans hdecodes')
    exact ⟨registered, toOption_eq_some_iff.1 (hschema.trans hregistered), hrest⟩
  · rintro ⟨registered, hregistered, hrest⟩
    exact ⟨p, registered, hdecodes, hschema.symm.trans (toOption_eq_some_iff.2 hregistered), hrest⟩

/-- **One payload.** -/
theorem call_spec (h : d.KeepsCaches s) (payload : Payload) :
    d.KeepsCaches (d.call s payload).2
      ∧ (MadeOnce (d.call s payload).2.validatedBindings.history
        ↔ MadeOnce s.validatedBindings.history ∧ ¬ d.Revalidates s payload) := by
  cases hdecodes : decodeConfluentPrefix payload.value true with
  | error e =>
    have hcall : d.call s payload = (.error e, s) := by
      unfold call
      rw [hdecodes]
    rw [hcall]
    refine ⟨h, (and_iff_left ?_).symm⟩
    rintro ⟨p, registered, hok, _⟩
    cases hdecodes.symm.trans hok
  | ok p =>
    obtain ⟨_, hkept, hsame⟩ := registered_spec h p.schemaId payload.reply
    rw [revalidates_iff h hdecodes]
    unfold call
    rw [hdecodes]
    dsimp only
    generalize d.registered s p.schemaId payload.reply = r at hkept hsame ⊢
    obtain ⟨outcome, t⟩ := r
    dsimp only at hkept hsame ⊢
    rw [← hsame]
    cases outcome with
    | error e =>
      refine ⟨hkept, (and_iff_left ?_).symm⟩
      rintro ⟨registered, ⟨⟩, _⟩
    | ok registered =>
      dsimp only
      split_ifs with htype
      · refine ⟨hkept, (and_iff_left ?_).symm⟩
        rintro ⟨_, ⟨⟩, htype', _⟩
        exact htype htype'
      · obtain ⟨hvalidated, hmade⟩ := validated_spec hkept registered (bindingKey p)
        have hbinds : (∃ registered', Except.ok registered = Except.ok (ε := Exc) registered'
            ∧ registered'.schemaType = "PROTOBUF"
            ∧ validateProtobufSchemaBinding d.unicodeWord registered'.schema d.messageType
              (bindingKey p).2 = .ok () ∧ bindingKey p ∈ t.validatedBindings.entries)
            ↔ validateProtobufSchemaBinding d.unicodeWord registered.schema d.messageType
              (bindingKey p).2 = .ok () ∧ bindingKey p ∈ t.validatedBindings.entries := by
          constructor
          · rintro ⟨_, ⟨⟩, _, hrest⟩
            exact hrest
          · exact fun hrest => ⟨registered, rfl, not_not.1 htype, hrest⟩
        rw [hbinds, ← hmade]
        generalize d.validated t registered (bindingKey p) = r at hvalidated ⊢
        obtain ⟨outcome, u⟩ := r
        cases outcome with
        | error e => exact ⟨hvalidated, Iff.rfl⟩
        | ok _ => exact ⟨hvalidated, Iff.rfl⟩

theorem keepsCaches_empty : d.KeepsCaches SchemaCaches.empty where
  schemas := LruCache.kept_empty
  bindings := LruCache.kept_empty
  fetchedOnce := madeOnce_nil
  values := fun _ he => absurd he List.not_mem_nil

/-- **When the caches do what they are for**: just when no payload has its binding validated
again. -/
theorem caches_iff (d : ProtobufSchemaRegistryDeserializer M T) (payloads : List Payload) :
    AllStates d.step d.Caches .empty payloads
      ↔ AllSteps d.step (fun s payload _ => ¬ d.Revalidates s payload) .empty payloads := by
  refine allStates_iff_allSteps (I := d.KeepsCaches) (fun s payload t h hcaches hs => ?_)
    keepsCaches_empty (keepsCaches_empty.trace_iff.2 madeOnce_nil) payloads
  cases hs
  obtain ⟨hkept, hmade⟩ := call_spec h payload
  refine ⟨hkept, ?_⟩
  rw [hkept.trace_iff, hmade]
  exact and_iff_right hcaches.validatedOnce

/-! ## Two payloads of one message -/

/-- A deserializer for the message `Order`. -/
def orders : ProtobufSchemaRegistryDeserializer Unit Unit where
  unicodeWord := fun _ => false
  messageType := ⟨some (some "Order".toList), fun _ => .ok ()⟩
  recordMapper := .ok
  schemaCacheMaxEntries := 256
  one_le_schemaCacheMaxEntries := by decide

/-- An empty message with the schema id 1. -/
def orderPayload : Payload where
  value := [0, 0, 0, 0, 1, 0]
  reply := .ok ⟨"message Order { }".toList, "PROTOBUF"⟩

/-- The binding is validated for both, and nothing is evicted. -/
theorem not_caches_orders :
    ¬ AllStates orders.step orders.Caches .empty [orderPayload, orderPayload] := by
  intro h
  have hhistory : (run orders.step .empty [orderPayload, orderPayload]).map
      (fun s => s.validatedBindings.history) = some [.made (1, [0]), .made (1, [0])] := by
    decide +kernel
  obtain ⟨s, hs, hmade⟩ := Option.map_eq_some_iff.1 hhistory
  have hevicted := (h.last hs).validatedOnce (1, [0]) [] [] [] hmade
  exact List.not_mem_nil hevicted

end ProtobufSchemaRegistryDeserializer

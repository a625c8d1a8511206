import AgoraPlugins.Reply
import Mathlib.Data.Finset.Sort
import Mathlib.Data.String.Basic
import Mathlib.Logic.Function.Basic

/-!
# Marking an item in the Redis embedding store

`mark_if_new` looks for a stored embedding that is similar to that of its item, and stores the
item's if there is none. It holds a lock meanwhile, and checks now and then that it still does;
the last of these checks, and the release of the lock, come after the embedding is stored. So
do the reply to the command that stores it, and the command that lets it expire.

What raises there leaves the embedding in the store. A retry then finds it, and it is similar
to itself. Before that point a call only takes members out of the index that stand for nothing
it could compare with, and a retry reports a duplicate only if there is one.
-/

open Effect

/-- Whether Redis searches, or the client goes through the index. -/
inductive BackendMode where
  | scan
  | redisearch
  deriving DecidableEq

/-- **What the store keeps in Redis**: the vectors under their keys, which are strings in scan
mode and hashes otherwise; the set of the keys; the dimensions of the search index. -/
structure EmbeddingKeys where
  vectors : String → Option (List UInt8)
  index : Finset String
  searchIndex : Option ℕ

/-- The state of a call. The last two only record which commands have taken effect. -/
structure MarkState where
  redis : EmbeddingKeys
  /-- the store's own note of the search index -/
  dimensions : Option ℕ := none
  script : List Reply := []
  valueWritten : Bool := false
  memberWritten : Bool := false

/-- The computations of a store. -/
abbrev MarkM (β : Type) := EStateM Exc MarkState β

/-- **A store**: what its provider makes of an item, how an embedding is packed and compared,
and how Redis answers `SSCAN` and the search for the nearest vector. -/
structure RedisEmbeddingStore (E : Type) where
  embed : String → E
  dims : E → ℕ
  pack : E → Except Exc (List UInt8)
  length_pack : ∀ e packed, pack e = .ok packed → packed.length = 4 * dims e
  /-- `cosine_similarity` with the vector is at least the threshold -/
  similar : E → List UInt8 → Bool
  /-- their distance is at most one minus the threshold -/
  near : E → List UInt8 → Bool
  knn : (String → Option (List UInt8)) → E → Bool
  knn_iff : ∀ vectors e, knn vectors e = true ↔
    ∃ key packed, vectors key = some packed ∧ packed.length = 4 * dims e ∧ near e packed = true
  sscan : Finset String → List (List String)
  mem_sscan : ∀ index m, m ∈ (sscan index).flatten ↔ m ∈ index
  maxEntries : ℕ := 10000
  backendMode : BackendMode := .scan
  redisCluster : Bool := false

namespace RedisEmbeddingStore

variable {E β : Type}

/-! ## Commands -/

/-- What may raise takes the next reply. -/
def await : MarkM PUnit :=
  zoom MarkState.script (fun s script => { s with script }) nextReply

/-- A value, or what getting it raised. -/
def ofExcept : Except Exc β → MarkM β
  | .ok b => pure b
  | .error e => throw e

/-- **A command**, which may raise before it takes effect and after. -/
def command (f : MarkState → MarkState) : MarkM PUnit := do
  await
  modify f
  await

/-- `except Exception`, around a command. -/
def wrapped (message : String) (m : MarkM β) : MarkM β :=
  EStateM.adaptExcept (fun e => if e.isException then .exception "RuntimeError" message else e) m

/-- `SREM`. -/
def dropMembers (ms : List String) (s : MarkState) : MarkState :=
  { s with redis := { s.redis with index := s.redis.index.filter (fun m => m ∉ ms) } }

/-- `SET`, or `HSET`. -/
def setVector (key : String) (packed : List UInt8) (s : MarkState) : MarkState :=
  { s with
    redis := { s.redis with vectors := Function.update s.redis.vectors key (some packed) }
    valueWritten := true }

/-- `SADD`. -/
def addMember (key : String) (s : MarkState) : MarkState :=
  { s with
    redis := { s.redis with index := insert key s.redis.index }
    memberWritten := true }

/-- **`_redis_remove_index_members`.** -/
def removeIndexMembers (ms : List String) : MarkM PUnit :=
  if ms = [] then pure ⟨⟩ else command (dropMembers ms)

variable (cfg : RedisEmbeddingStore E)

/-! ## The search -/

/-- What a member of the index stands for. -/
inductive Verdict where
  /-- nothing, or what cannot be compared -/
  | stale
  | similar
  | different
  deriving DecidableEq

/-- **What a scan makes of a value**: it may be gone or no vector, of another dimension, similar, or
neither. -/
def verdict (e : E) : Option (List UInt8) → Verdict
  | none => .stale
  | some packed =>
    if packed.length % 4 ≠ 0 then .stale
    else if packed.length / 4 ≠ cfg.dims e then .stale
    else if cfg.similar e packed then .similar else .different

/-- The members of a page, up to the first that is similar. -/
def searchMembers (vectors : String → Option (List UInt8)) (e : E) : List String → MarkM Bool
  | [] => pure false
  | m :: ms =>
    match cfg.verdict e (vectors m) with
    | .stale => do
      removeIndexMembers [m]
      searchMembers vectors e ms
    | .similar => pure true
    | .different => searchMembers vectors e ms

/-- A page, with its `GET`s and the check of the lock. -/
def searchPage (e : E) (page : List String) : MarkM Bool :=
  if page = [] then pure false
  else do
    await
    await
    let s ← get
    cfg.searchMembers s.redis.vectors e page

/-- **The loop over `SSCAN`.** -/
def searchPages (e : E) : List (List String) → MarkM Bool
  | [] => pure false
  | page :: pages => do
    await -- the check of the lock
    await
    let hit ← cfg.searchPage e page
    if hit then pure true else searchPages e pages

/-- `FT.CREATE`, or `FT.INFO` if there is an index. -/
def createIndex (e : E) : MarkM PUnit := do
  wrapped "RedisEmbeddingStore use_redisearch=True requires RediSearch with vector index support."
    await
  let s ← get
  match s.redis.searchIndex with
  | none => do
    modify (fun s => { s with redis := { s.redis with searchIndex := some (cfg.dims e) } })
    wrapped
      "RedisEmbeddingStore use_redisearch=True requires RediSearch with vector index support."
      await
  | some d => do
    wrapped "RedisEmbeddingStore could not validate existing RediSearch index." await
    if d = cfg.dims e then pure ⟨⟩
    else throw (.exception "ValueError" "RedisEmbeddingStore RediSearch index dimension mismatch")

/-- **`_ensure_redisearch_index`.** -/
def ensureRedisearchIndex (e : E) : MarkM PUnit := do
  let s ← get
  if s.dimensions = some (cfg.dims e) then pure ⟨⟩
  else do
    cfg.createIndex e
    modify (fun s => { s with dimensions := some (cfg.dims e) })

/-- **`_redisearch_exists`.** -/
def redisearchExists (e : E) : MarkM Bool := do
  let _ ← ofExcept (cfg.pack e)
  cfg.ensureRedisearchIndex e
  await
  let s ← get
  if s.redis.searchIndex = some (cfg.dims e) then pure (cfg.knn s.redis.vectors e)
  else throw (.exception "ResponseError" "")

/-- **`_redis_exists`.** -/
def redisExists (e : E) : MarkM Bool :=
  match cfg.backendMode with
  | .redisearch => cfg.redisearchExists e
  | .scan => do
    let s ← get
    cfg.searchPages e (cfg.sscan s.redis.index)

/-! ## The write -/

/-- A value under the key that is no vector. -/
def malformed : Option (List UInt8) → Bool
  | none => true
  | some packed => packed.length % 4 ≠ 0

/-- The members of a page that are stale are removed. -/
def prunePage (page : List String) : MarkM PUnit :=
  if page = [] then pure ⟨⟩
  else do
    await
    let s ← get
    removeIndexMembers (page.filter (fun m => malformed (s.redis.vectors m)))

/-- **`_redis_prune_stale_index_entries`.** -/
def prunePages : List (List String) → MarkM PUnit
  | [] => pure ⟨⟩
  | page :: pages => do
    await
    prunePage page
    prunePages pages

/-- A command of a pipeline that is no transaction: what it raises is for later. -/
def attempt (m : MarkM PUnit) : MarkM (Option Exc) :=
  tryCatch (do m; pure none) (fun e => pure (some e))

/-- **The pipeline**: a transaction, or in a cluster two commands for their own nodes. -/
def execute (key : String) (packed : List UInt8) : MarkM PUnit :=
  if cfg.redisCluster then do
    let value ← attempt (command (setVector key packed))
    let member ← attempt (command (addMember key))
    match value.or member with
    | some e => throw e
    | none => pure ⟨⟩
  else command (fun s => addMember key (setVector key packed s))

def reservedKeys : List String := ["__index__", "__lock__"]

/-- The vector and the index, unless the store is full. -/
def addToIndex (key : String) (packed : List UInt8) : MarkM PUnit := do
  let s ← get
  prunePages (cfg.sscan s.redis.index)
  await -- `SCARD`
  let s ← get
  if cfg.maxEntries ≤ s.redis.index.card then
    throw (.exception "RuntimeError" ("RedisEmbeddingStore has reached max_entries="
      ++ toString cfg.maxEntries ++ ". Use a dedicated vector database for larger datasets."))
  else cfg.execute key packed

/-- A hash, and its time to live. -/
def addHash (key : String) (e : E) (packed : List UInt8) (ttlSeconds : Option ℤ) :
    MarkM PUnit := do
  cfg.ensureRedisearchIndex e
  command (setVector key packed)
  match ttlSeconds with
  | none => pure ⟨⟩
  | some _ => command id

/-- **`_redis_add`.** -/
def redisAdd (key : String) (e : E) (ttlSeconds : Option ℤ) : MarkM PUnit :=
  if key ∈ reservedKeys then
    throw (.exception "ValueError"
      ("RedisEmbeddingStore key '" ++ key ++ "' is reserved for internal bookkeeping."))
  else do
    let packed ← ofExcept (cfg.pack e)
    match cfg.backendMode with
    | .redisearch => cfg.addHash key e packed ttlSeconds
    | .scan => cfg.addToIndex key packed

/-! ## The call -/

/-- `_renew_mark_lock`: the lock is checked when the body returns, and at the exit. -/
def renewMarkLock (m : MarkM Bool) : MarkM Bool :=
  ensuring (do
    let b ← m
    await
    pure b) await

/-- The two locks. -/
def locked (m : MarkM Bool) : MarkM Bool := do
  await
  await
  ensuring m await

/-- The search, and the write. -/
def checkThenAdd (key : String) (ttlSeconds : Option ℤ) : MarkM Bool := do
  let hit ← cfg.redisExists (cfg.embed key)
  if hit then do
    await
    pure false
  else do
    await
    cfg.redisAdd key (cfg.embed key) ttlSeconds
    await
    pure true

/-- **`mark_if_new`.** -/
def markIfNew (key : String) (ttlSeconds : Option ℤ) : MarkM Bool :=
  if ∃ ttl ∈ ttlSeconds, ttl ≤ 0 then
    throw (.exception "ValueError" "ttl_seconds must be greater than zero when provided.")
  else do
    await -- the provider
    await -- the client
    locked (renewMarkLock (cfg.checkThenAdd key ttlSeconds))

/-! ## What a search leaves behind -/

/-- The search index is of the right dimensions, or will be. -/
def Ready (e : E) (s : MarkState) : Prop :=
  if s.dimensions = some (cfg.dims e) then s.redis.searchIndex = some (cfg.dims e)
  else s.redis.searchIndex = none ∨ s.redis.searchIndex = some (cfg.dims e)

/-- **An embedding is a duplicate** of one in the store. -/
def Duplicate (e : E) (s : MarkState) : Prop :=
  match cfg.backendMode with
  | .scan => ∃ m ∈ s.redis.index, cfg.verdict e (s.redis.vectors m) = .similar
  | .redisearch =>
    (∃ packed, cfg.pack e = .ok packed) ∧ cfg.Ready e s ∧ cfg.knn s.redis.vectors e = true

/-- **Nothing is lost**: the vectors are the same, and the index has the members that can be
compared with the embedding. -/
structure Tended (e : E) (s t : MarkState) : Prop where
  vectors : t.redis.vectors = s.redis.vectors
  index : t.redis.index ⊆ s.redis.index
  kept : ∀ m ∈ s.redis.index, cfg.verdict e (s.redis.vectors m) ≠ .stale → m ∈ t.redis.index
  ready : cfg.Ready e t → cfg.Ready e s
  value : t.valueWritten = s.valueWritten
  member : t.memberWritten = s.memberWritten

variable {cfg} {e : E} {s t u : MarkState}

theorem Tended.refl (s : MarkState) : cfg.Tended e s s :=
  ⟨rfl, Finset.Subset.refl _, fun _ h _ => h, id, rfl, rfl⟩

theorem Tended.trans (h : cfg.Tended e s t) (h' : cfg.Tended e t u) : cfg.Tended e s u where
  vectors := h'.vectors.trans h.vectors
  index := h'.index.trans h.index
  kept := fun m hm hs => h'.kept m (h.kept m hm hs) (h.vectors ▸ hs)
  ready := fun hu => h.ready (h'.ready hu)
  value := h'.value.trans h.value
  member := h'.member.trans h.member

/-- A reply that is used up changes nothing. -/
theorem tended_script (script : List Reply) : cfg.Tended e s { s with script } :=
  ⟨rfl, Finset.Subset.refl _, fun _ h _ => h, id, rfl, rfl⟩

/-- Members that stand for nothing may go. -/
theorem tended_dropMembers {ms : List String}
    (h : ∀ m ∈ ms, cfg.verdict e (s.redis.vectors m) = .stale) :
    cfg.Tended e s (dropMembers ms s) where
  vectors := rfl
  index := Finset.filter_subset _ _
  kept := fun m hm hs => Finset.mem_filter.2 ⟨hm, fun hms => hs (h m hms)⟩
  ready := id
  value := rfl
  member := rfl

/-! ## Awaiting -/

/-- A script that has run out stays so, and nothing raises. -/
theorem ensures_await {Q : Except Exc PUnit → MarkState → Prop}
    (hok : ∀ script, (s.script = [] → script = []) → Q (.ok ⟨⟩) { s with script })
    (herror : s.script ≠ [] → ∀ e script, Q (.error e) { s with script }) :
    Ensures await s Q := by
  unfold await nextReply
  rw [ensures_zoom, ensures_bind, ensures_get]
  dsimp only
  cases hs : s.script with
  | nil => exact hok [] (fun _ => rfl)
  | cons reply script =>
    have hne : s.script ≠ [] := by simp [hs]
    cases reply with
    | ok => exact hok script (fun h => absurd h hne)
    | raises e => exact herror hne e script

/-- A command has not taken effect, or it has. -/
theorem ensures_command {f : MarkState → MarkState} {Q : Except Exc PUnit → MarkState → Prop}
    (hf : ∀ script, (f { s with script }).script = script)
    (hbefore : s.script ≠ [] → ∀ e script, Q (.error e) { s with script })
    (hafter : ∀ script script' r, (s.script = [] → script' = [] ∧ r = .ok ⟨⟩) →
      Q r { f { s with script } with script := script' }) :
    Ensures (command f) s Q := by
  unfold command
  rw [ensures_bind]
  refine ensures_await (fun script hscript => ?_) hbefore
  dsimp only
  rw [ensures_bind, ensures_modify]
  dsimp only
  refine ensures_await (fun script' hscript' => ?_) (fun hne e script' => ?_)
  · exact hafter script script' _ (fun h => ⟨hscript' ((hf script).trans (hscript h)), rfl⟩)
  · exact hafter script script' _ (fun h => absurd ((hf script).trans (hscript h)) hne)

/-! ## The search -/

variable (cfg) (e) in
/-- One of the members is similar. -/
def hits (vectors : String → Option (List UInt8)) (ms : List String) : Bool :=
  ms.any (fun m => cfg.verdict e (vectors m) = .similar)

variable (cfg) (e) in
/-- **What a search through some members does.** It returns whether one is similar; if none is,
it has dropped those that stand for nothing. It raises only if a command does. -/
structure Searched (ms : List String) (s : MarkState) (r : Except Exc Bool) (t : MarkState) :
    Prop where
  tended : cfg.Tended e s t
  result : ∀ b, r = .ok b → b = cfg.hits e s.redis.vectors ms
  dropped : r = .ok false →
    ∀ m ∈ ms, m ∈ t.redis.index → cfg.verdict e (s.redis.vectors m) ≠ .stale
  clean : s.script = [] → t.script = [] ∧ ∃ b, r = .ok b

theorem searched_nil : cfg.Searched e [] s (.ok false) s where
  tended := .refl s
  result := fun _ h => (Except.ok.inj h).symm
  dropped := fun _ _ hm => absurd hm List.not_mem_nil
  clean := fun h => ⟨h, false, rfl⟩

/-- What has been awaited before a search. -/
theorem Searched.of_script {ms : List String} {script : List Reply} {r : Except Exc Bool}
    (h : cfg.Searched e ms { s with script } r t) (hscript : s.script = [] → script = []) :
    cfg.Searched e ms s r t where
  tended := (tended_script script).trans h.tended
  result := h.result
  dropped := h.dropped
  clean := fun hs => h.clean (hscript hs)

/-- **A search that raises** has some reply to blame. -/
theorem searched_error {ms : List String} (hne : s.script ≠ []) (exc : Exc)
    (h : cfg.Tended e s t) : cfg.Searched e ms s (.error exc) t where
  tended := h
  result := by rintro b ⟨⟩
  dropped := by rintro ⟨⟩
  clean := fun hs => absurd hs hne

/-- **One search after another.** -/
theorem Searched.append {ms ms' : List String} {r : Except Exc Bool}
    (h : cfg.Searched e ms s (.ok false) t) (h' : cfg.Searched e ms' t r u) :
    cfg.Searched e (ms ++ ms') s r u where
  tended := h.tended.trans h'.tended
  result := by
    intro b hb
    have hms := (h.result false rfl).symm
    have hms' := h'.result b hb
    rw [h.tended.vectors] at hms'
    rw [hits, List.any_append]
    rw [hits] at hms
    rw [hms, Bool.false_or]
    exact hms'
  dropped := by
    intro hr m hm hmu
    rcases List.mem_append.1 hm with hm | hm
    · exact h.dropped rfl m hm (h'.tended.index hmu)
    · have hstale := h'.dropped hr m hm hmu
      rwa [h.tended.vectors] at hstale
  clean := fun hs => h'.clean (h.clean hs).1

/-- A hit ends the search. -/
theorem Searched.hit {ms : List String} (h : cfg.Searched e ms s (.ok true) t)
    (ms' : List String) : cfg.Searched e (ms ++ ms') s (.ok true) t where
  tended := h.tended
  result := by
    intro b hb
    rw [hits, List.any_append]
    have hms := h.result b hb
    rw [hits] at hms
    obtain rfl := Except.ok.inj hb
    rw [← hms, Bool.true_or]
  dropped := by rintro ⟨⟩
  clean := h.clean

/-- An error on one page ends the whole search. -/
theorem Searched.raised {ms : List String} {exc : Exc}
    (h : cfg.Searched e ms s (.error exc) t) (ms' : List String) :
    cfg.Searched e (ms ++ ms') s (.error exc) t where
  tended := h.tended
  result := by rintro b ⟨⟩
  dropped := by rintro ⟨⟩
  clean := fun hs => ⟨(h.clean hs).1, by obtain ⟨_, b, hb⟩ := h.clean hs; cases hb⟩

/-- A stale member is taken out of the index. -/
theorem ensures_removeIndexMembers {ms : List String}
    (h : ∀ m ∈ ms, cfg.verdict e (s.redis.vectors m) = .stale) :
    Ensures (removeIndexMembers ms) s (fun r t => cfg.Tended e s t
      ∧ (r = .ok ⟨⟩ → ∀ m ∈ ms, m ∉ t.redis.index)
      ∧ (s.script = [] → t.script = [] ∧ r = .ok ⟨⟩)) := by
  unfold removeIndexMembers
  split
  · rename_i hnil
    refine ⟨.refl s, fun _ m hm => ?_, fun hs => ⟨hs, rfl⟩⟩
    rw [hnil] at hm
    cases hm
  · refine ensures_command (fun _ => rfl)
      (fun hne exc script => ⟨tended_script script, (by rintro ⟨⟩), fun hs => absurd hs hne⟩)
      (fun script script' r hclean => ⟨?_, fun _ m hm hindex => ?_, hclean⟩)
    · have hdrop : cfg.Tended e { s with script } (dropMembers ms { s with script }) :=
        tended_dropMembers h
      exact ((tended_script script).trans hdrop).trans (tended_script script')
    · exact (Finset.mem_filter.1 hindex).2 hm

/-- **The members of a page.** -/
theorem ensures_searchMembers (ms : List String) (s : MarkState) :
    Ensures (cfg.searchMembers s.redis.vectors e ms) s (cfg.Searched e ms s) := by
  induction ms generalizing s with
  | nil => exact searched_nil
  | cons m ms ih =>
    show Ensures _ s (cfg.Searched e ([m] ++ ms) s)
    unfold searchMembers
    split
    · rename_i hstale
      have hms : ∀ m' ∈ [m], cfg.verdict e (s.redis.vectors m') = .stale := by
        simpa using hstale
      refine (ensures_removeIndexMembers hms).bind (fun _ t ht => ?_) (fun exc t ht => ?_)
      · have hsearched : cfg.Searched e [m] s (.ok false) t :=
          { tended := ht.1
            result := fun b hb => by
              rw [← Except.ok.inj hb, hits]
              simp [hstale]
            dropped := fun _ m' hm' hindex => absurd hindex (ht.2.1 rfl m' hm')
            clean := fun hs => ⟨(ht.2.2 hs).1, false, rfl⟩ }
        rw [← ht.1.vectors]
        exact (ih t).mono (fun _ _ h => hsearched.append h)
      · exact { tended := ht.1, result := by rintro b ⟨⟩, dropped := by rintro ⟨⟩,
                clean := fun hs => absurd (ht.2.2 hs).2 (by rintro ⟨⟩) }
    · rename_i hsimilar
      have hsearched : cfg.Searched e [m] s (.ok true) s :=
        { tended := .refl s
          result := fun b hb => by
            rw [← Except.ok.inj hb, hits]
            simp [hsimilar]
          dropped := by rintro ⟨⟩
          clean := fun hs => ⟨hs, true, rfl⟩ }
      exact hsearched.hit ms
    · rename_i hdifferent
      have hsearched : cfg.Searched e [m] s (.ok false) s :=
        { tended := .refl s
          result := fun b hb => by
            rw [← Except.ok.inj hb, hits]
            simp [hdifferent]
          dropped := fun _ m' hm' _ => by
            rw [List.mem_singleton.1 hm', hdifferent]
            decide
          clean := fun hs => ⟨hs, false, rfl⟩ }
      exact (ih s).mono (fun _ _ h => hsearched.append h)

/-- **A page is searched**, member by member. -/
theorem ensures_searchPage (page : List String) (s : MarkState) :
    Ensures (cfg.searchPage e page) s (cfg.Searched e page s) := by
  unfold searchPage
  split
  · rename_i hnil
    rw [hnil]
    exact searched_nil
  · rw [ensures_bind]
    refine ensures_await (fun script hscript => ?_)
      (fun hne exc script => searched_error hne exc (tended_script script))
    dsimp only
    rw [ensures_bind]
    refine ensures_await (fun script' hscript' => ?_) (fun hne exc script' => ?_)
    · exact (ensures_searchMembers page _).mono
        (fun _ _ h => Searched.of_script (s := s) h (fun hs => hscript' (hscript hs)))
    · exact (searched_error hne exc (tended_script script')).of_script hscript

/-- **The whole search**, by induction on the pages. -/
theorem ensures_searchPages (pages : List (List String)) (s : MarkState) :
    Ensures (cfg.searchPages e pages) s (cfg.Searched e pages.flatten s) := by
  induction pages generalizing s with
  | nil => exact searched_nil
  | cons page pages ih =>
    unfold searchPages
    rw [ensures_bind]
    refine ensures_await (fun script hscript => ?_)
      (fun hne exc script => searched_error hne exc (tended_script script))
    dsimp only
    rw [ensures_bind]
    refine ensures_await (fun script' hscript' => ?_) (fun hne exc script' => ?_)
    · dsimp only
      refine (ensures_searchPage page _).bind (fun hit t ht => ?_) (fun exc t ht => ?_)
      · have ht' := ht.of_script (fun hs => hscript' (hscript hs))
        cases hit with
        | true => exact ht'.hit pages.flatten
        | false => exact (ih t).mono (fun _ _ h => ht'.append h)
      · exact (ht.of_script (fun hs => hscript' (hscript hs))).raised pages.flatten
    · exact (searched_error hne exc (tended_script script')).of_script hscript

/-! ## The search index -/

theorem ensures_wrapped {message : String} {Q : Except Exc PUnit → MarkState → Prop}
    (hok : ∀ script, (s.script = [] → script = []) → Q (.ok ⟨⟩) { s with script })
    (herror : s.script ≠ [] → ∀ e script, Q (.error e) { s with script }) :
    Ensures (wrapped message await) s Q := by
  unfold wrapped
  rw [ensures_adaptExcept]
  exact ensures_await hok (fun hne _ script => herror hne _ script)

/-- The index is there, of the right dimensions, or it raises. -/
theorem ensures_createIndex (hd : s.dimensions ≠ some (cfg.dims e)) :
    Ensures (cfg.createIndex e) s (fun r t => cfg.Tended e s t ∧ t.dimensions = s.dimensions
      ∧ (r = .ok ⟨⟩ → t.redis.searchIndex = some (cfg.dims e))
      ∧ (s.script = [] → t.script = [] ∧ (cfg.Ready e s → r = .ok ⟨⟩))) := by
  have hready : cfg.Ready e s ↔ s.redis.searchIndex = none
      ∨ s.redis.searchIndex = some (cfg.dims e) := by
    rw [Ready, if_neg hd]
  unfold createIndex
  rw [ensures_bind]
  refine ensures_wrapped (fun script hscript => ?_)
    (fun hne exc script => ⟨tended_script script, rfl, (by rintro ⟨⟩), fun hs => absurd hs hne⟩)
  dsimp only
  rw [ensures_bind, ensures_get]
  dsimp only
  cases hindex : s.redis.searchIndex with
  | none =>
    have htended : ∀ script, cfg.Tended e s { s with
        redis := { s.redis with searchIndex := some (cfg.dims e) }, script } := fun script =>
      ⟨rfl, Finset.Subset.refl _, fun _ h _ => h, fun _ => hready.2 (.inl hindex), rfl, rfl⟩
    dsimp only
    rw [ensures_bind, ensures_modify]
    dsimp only
    refine ensures_wrapped (fun script' hscript' => ?_) (fun hne exc script' => ?_)
    · exact ⟨htended script', rfl, fun _ => rfl,
        fun hs => ⟨hscript' (hscript hs), fun _ => rfl⟩⟩
    · exact ⟨htended script', rfl, (by rintro ⟨⟩), fun hs => absurd (hscript hs) hne⟩
  | some d =>
    dsimp only
    rw [ensures_bind]
    refine ensures_wrapped (fun script' hscript' => ?_) (fun hne exc script' => ?_)
    · dsimp only
      by_cases hdims : d = cfg.dims e
      · rw [if_pos hdims]
        exact ⟨tended_script script', rfl, fun _ => hindex.trans (congrArg some hdims),
          fun hs => ⟨hscript' (hscript hs), fun _ => rfl⟩⟩
      · rw [if_neg hdims]
        refine ⟨tended_script script', rfl, (by rintro ⟨⟩),
          fun hs => ⟨hscript' (hscript hs), fun hr => ?_⟩⟩
        rw [hindex] at hready
        rcases hready.1 hr with h | h
        · cases h
        · exact absurd (Option.some.inj h) hdims
    · exact ⟨tended_script script', rfl, (by rintro ⟨⟩), fun hs => absurd (hscript hs) hne⟩

variable (cfg) (e) in
/-- **What `_ensure_redisearch_index` does.** -/
structure Prepared (s : MarkState) (r : Except Exc PUnit) (t : MarkState) : Prop where
  tended : cfg.Tended e s t
  noted : r = .ok ⟨⟩ → t.dimensions = some (cfg.dims e)
  ready : r = .ok ⟨⟩ → cfg.Ready e s → t.redis.searchIndex = some (cfg.dims e)
  clean : s.script = [] → t.script = [] ∧ (cfg.Ready e s → r = .ok ⟨⟩)

/-- **The search index** is there when the call returns. -/
theorem ensures_ensureRedisearchIndex (s : MarkState) :
    Ensures (cfg.ensureRedisearchIndex e) s (cfg.Prepared e s) := by
  unfold ensureRedisearchIndex
  rw [ensures_bind, ensures_get]
  dsimp only
  by_cases hd : s.dimensions = some (cfg.dims e)
  · rw [if_pos hd]
    refine ⟨.refl s, fun _ => hd, fun _ hr => ?_, fun hs => ⟨hs, fun _ => rfl⟩⟩
    rwa [Ready, if_pos hd] at hr
  · rw [if_neg hd]
    refine (ensures_createIndex hd).bind (fun _ t ht => ?_) (fun exc t ht => ?_)
    · obtain ⟨htended, hdimensions, hindex, hclean⟩ := ht
      rw [ensures_modify]
      refine
        { tended := htended.trans ⟨rfl, Finset.Subset.refl _, fun _ h _ => h, fun _ => ?_, rfl, rfl⟩
          noted := fun _ => rfl
          ready := fun _ _ => hindex rfl
          clean := fun hs => ⟨(hclean hs).1, fun _ => rfl⟩ }
      rw [Ready, hdimensions, if_neg hd]
      exact .inr (hindex rfl)
    · obtain ⟨htended, -, -, hclean⟩ := ht
      exact
        { tended := htended
          noted := by rintro ⟨⟩
          ready := by rintro ⟨⟩
          clean := hclean }

variable (cfg) (e) in
/-- **What the search of either mode does.** -/
structure Checked (s : MarkState) (r : Except Exc Bool) (t : MarkState) : Prop where
  tended : cfg.Tended e s t
  found : r = .ok true → cfg.Duplicate e s
  /-- if nothing is found, the members of the index can be compared, and the search index is
  there -/
  new : r = .ok false → ¬ cfg.Duplicate e s
  compared : r = .ok false → cfg.backendMode = .scan →
    ∀ m ∈ t.redis.index, cfg.verdict e (s.redis.vectors m) ≠ .stale
  indexed : r = .ok false → cfg.backendMode = .redisearch →
    t.dimensions = some (cfg.dims e) ∧ t.redis.searchIndex = some (cfg.dims e)
  clean : s.script = [] → t.script = [] ∧ (cfg.Duplicate e s → r = .ok true)

/-- **A search by Redis** says whether there is a similar vector. -/
theorem ensures_redisearchExists (hmode : cfg.backendMode = .redisearch) (s : MarkState) :
    Ensures (cfg.redisearchExists e) s (cfg.Checked e s) := by
  have hduplicate : cfg.Duplicate e s ↔ (∃ packed, cfg.pack e = .ok packed) ∧ cfg.Ready e s
      ∧ cfg.knn s.redis.vectors e = true := by
    rw [Duplicate, hmode]
  have hnotScan : cfg.backendMode ≠ .scan := by rw [hmode]; decide
  unfold redisearchExists
  cases hpack : cfg.pack e with
  | error exc =>
    have hnot : ¬ cfg.Duplicate e s := by
      rw [hduplicate, hpack]
      rintro ⟨⟨packed, h⟩, -⟩
      cases h
    exact
      { tended := .refl s
        found := by rintro ⟨⟩
        new := by rintro ⟨⟩
        compared := by rintro ⟨⟩
        indexed := by rintro ⟨⟩
        clean := fun hs => ⟨hs, fun hdup => absurd hdup hnot⟩ }
  | ok packed =>
    show Ensures (cfg.ensureRedisearchIndex e >>= _) s _
    refine (ensures_ensureRedisearchIndex s).bind (fun _ t ht => ?_) (fun exc t ht => ?_)
    · rw [ensures_bind]
      refine ensures_await (fun script hscript => ?_) (fun hne exc script => ?_)
      · dsimp only
        rw [ensures_bind, ensures_get]
        dsimp only
        have htended : cfg.Tended e s { t with script } :=
          ht.tended.trans (tended_script script)
        -- the index has the dimension of the embedding, or the search raises
        by_cases hindex : t.redis.searchIndex = some (cfg.dims e)
        · rw [if_pos hindex, ensures_pure, ht.tended.vectors]
          have hready : cfg.Ready e s := by
            refine ht.tended.ready ?_
            rw [Ready, if_pos (ht.noted rfl)]
            exact hindex
          have hknn : cfg.Duplicate e s ↔ cfg.knn s.redis.vectors e = true := by
            rw [hduplicate, hpack]
            exact ⟨fun h => h.2.2, fun h => ⟨⟨packed, rfl⟩, hready, h⟩⟩
          exact
            { tended := htended
              found := fun hr => hknn.2 (Except.ok.inj hr)
              new := fun hr hdup =>
                absurd ((Except.ok.inj hr).symm.trans (hknn.1 hdup)) Bool.false_ne_true
              compared := fun _ hscan => absurd hscan hnotScan
              indexed := fun _ _ => ⟨ht.noted rfl, hindex⟩
              clean := fun hs => ⟨hscript (ht.clean hs).1,
                fun hdup => congrArg Except.ok (hknn.1 hdup)⟩ }
        · rw [if_neg hindex]
          exact
            { tended := htended
              found := by rintro ⟨⟩
              new := by rintro ⟨⟩
              compared := by rintro ⟨⟩
              indexed := by rintro ⟨⟩
              clean := fun hs => ⟨hscript (ht.clean hs).1,
                fun hdup => absurd (ht.ready rfl (hduplicate.1 hdup).2.1) hindex⟩ }
      · exact
          { tended := ht.tended.trans (tended_script script)
            found := by rintro ⟨⟩
            new := by rintro ⟨⟩
            compared := by rintro ⟨⟩
            indexed := by rintro ⟨⟩
            clean := fun hs => absurd (ht.clean hs).1 hne }
    · exact
        { tended := ht.tended
          found := by rintro ⟨⟩
          new := by rintro ⟨⟩
          compared := by rintro ⟨⟩
          indexed := by rintro ⟨⟩
          clean := fun hs => ⟨(ht.clean hs).1,
            fun hdup => absurd ((ht.clean hs).2 (hduplicate.1 hdup).2.1) (by rintro ⟨⟩)⟩ }

/-- **`exists`** says so in either mode. -/
theorem ensures_redisExists (s : MarkState) :
    Ensures (cfg.redisExists e) s (cfg.Checked e s) := by
  unfold redisExists
  cases hmode : cfg.backendMode with
  | scan =>
    dsimp only
    rw [ensures_bind, ensures_get]
    dsimp only
    have hhits : cfg.hits e s.redis.vectors (cfg.sscan s.redis.index).flatten = true
        ↔ cfg.Duplicate e s := by
      rw [Duplicate, hmode, hits, List.any_eq_true]
      dsimp only
      simp only [cfg.mem_sscan, decide_eq_true_eq]
    refine (ensures_searchPages _ s).mono (fun r t h => ?_)
    refine
      { tended := h.tended
        found := fun hr => hhits.1 (h.result true hr).symm
        new := fun hr hdup => absurd ((h.result false hr).trans (hhits.2 hdup)) (by rintro ⟨⟩)
        compared := fun hr _ m hm => ?_
        indexed := fun _ hsearch => absurd (hmode.symm.trans hsearch) (by rintro ⟨⟩)
        clean := fun hs => ⟨(h.clean hs).1, fun hdup => ?_⟩ }
    · exact h.dropped hr m ((cfg.mem_sscan _ m).2 (h.tended.index hm)) hm
    · obtain ⟨b, hb⟩ := (h.clean hs).2
      rw [hb, h.result b hb, hhits.2 hdup]
  | redisearch => exact ensures_redisearchExists hmode s

/-! ## The write -/

variable {key : String} {packed : List UInt8}

variable (cfg) (e) (key) (packed) in
/-- **A call that has come to its write**, with what of it has taken effect. -/
structure Writing (s t : MarkState) : Prop where
  new : ¬ cfg.Duplicate e s
  packs : cfg.pack e = .ok packed
  vectors : t.redis.vectors =
    if t.valueWritten then Function.update s.redis.vectors key (some packed) else s.redis.vectors
  kept : ∀ m ∈ s.redis.index, cfg.verdict e (s.redis.vectors m) ≠ .stale → m ∈ t.redis.index
  added : t.memberWritten = true → key ∈ t.redis.index
  compared : cfg.backendMode = .scan → ∀ m ∈ t.redis.index,
    (m ∈ s.redis.index ∧ cfg.verdict e (s.redis.vectors m) ≠ .stale)
      ∨ (t.memberWritten = true ∧ m = key)
  ready : cfg.Ready e t → cfg.Ready e s
  indexed : cfg.backendMode = .redisearch → cfg.Ready e t

/-- A reply that is used up has written nothing. -/
theorem Writing.script (h : cfg.Writing e key packed s t) (script : List Reply) :
    cfg.Writing e key packed s { t with script } :=
  ⟨h.new, h.packs, h.vectors, h.kept, h.added, h.compared, h.ready, h.indexed⟩

theorem Writing.setVector (h : cfg.Writing e key packed s t) :
    cfg.Writing e key packed s (setVector key packed t) where
  new := h.new
  packs := h.packs
  vectors := by
    show Function.update t.redis.vectors key (some packed)
      = Function.update s.redis.vectors key (some packed)
    rw [h.vectors]
    split
    · rw [Function.update_idem]
    · rfl
  kept := h.kept
  added := h.added
  compared := h.compared
  ready := h.ready
  indexed := h.indexed

theorem Writing.addMember (h : cfg.Writing e key packed s t) :
    cfg.Writing e key packed s (addMember key t) where
  new := h.new
  packs := h.packs
  vectors := h.vectors
  kept := fun m hm hs => Finset.mem_insert_of_mem (h.kept m hm hs)
  added := fun _ => Finset.mem_insert_self _ _
  compared := by
    intro hmode m hm
    rcases Finset.mem_insert.1 hm with rfl | hm
    · exact .inr ⟨rfl, rfl⟩
    · exact (h.compared hmode m hm).imp_right (fun h => ⟨rfl, h.2⟩)
  ready := h.ready
  indexed := h.indexed

/-- The search has found nothing, and no write has taken effect. -/
theorem Tended.writing (h : cfg.Tended e s t) (hunmarked : s.valueWritten = false)
    (hnew : ¬ cfg.Duplicate e s) (hpack : cfg.pack e = .ok packed)
    (hmember : s.memberWritten = false)
    (hcompared : cfg.backendMode = .scan →
      ∀ m ∈ t.redis.index, cfg.verdict e (s.redis.vectors m) ≠ .stale)
    (hready : cfg.backendMode = .redisearch → cfg.Ready e t) :
    cfg.Writing e key packed s t where
  new := hnew
  packs := hpack
  vectors := by
    rw [h.value, hunmarked, h.vectors]
    rfl
  kept := h.kept
  added := fun ht => absurd (hmember.symm.trans (h.member.symm.trans ht)) Bool.false_ne_true
  compared := fun hmode m hm => .inl ⟨h.index hm, hcompared hmode m hm⟩
  ready := h.ready
  indexed := hready

variable (cfg) (e) (key) in
/-- **What an attempt leaves behind**: what a search does, or a call that has come to its
write. -/
def Attempted (s t : MarkState) : Prop :=
  cfg.Tended e s t ∨ ∃ packed, cfg.Writing e key packed s t

/-- A reply that is used up is no attempt. -/
theorem Attempted.script (h : cfg.Attempted e key s t) (script : List Reply) :
    cfg.Attempted e key s { t with script } :=
  h.imp (fun h => h.trans (tended_script script)) (fun ⟨packed, h⟩ => ⟨packed, h.script script⟩)

/-- What is no vector is stale for every embedding. -/
theorem verdict_of_malformed {value : Option (List UInt8)} (h : malformed value = true) :
    cfg.verdict e value = .stale := by
  cases value with
  | none => rfl
  | some packed =>
    unfold verdict
    exact if_pos (of_decide_eq_true h)

/-- **Pruning** drops members that stand for nothing. -/
theorem ensures_prunePages (pages : List (List String)) (s : MarkState) :
    Ensures (prunePages pages) s (fun _ t => cfg.Tended e s t
      ∧ (s.script = [] → t.script = [])) := by
  induction pages generalizing s with
  | nil => exact ⟨.refl s, id⟩
  | cons page pages ih =>
    unfold prunePages
    rw [ensures_bind]
    refine ensures_await (fun script hscript => ?_)
      (fun hne exc script => ⟨tended_script script, fun hs => absurd hs hne⟩)
    dsimp only
    have hpage : Ensures (prunePage page) { s with script } (fun _ t => cfg.Tended e s t
        ∧ (s.script = [] → t.script = [])) := by
      unfold prunePage
      split
      · exact ⟨tended_script script, hscript⟩
      · rw [ensures_bind]
        refine ensures_await (fun script' hscript' => ?_) (fun hne exc script' => ?_)
        · dsimp only
          rw [ensures_bind, ensures_get]
          have hstale : ∀ m ∈ page.filter (fun m => malformed (s.redis.vectors m)),
              cfg.verdict e (s.redis.vectors m) = .stale :=
            fun m hm => verdict_of_malformed (List.mem_filter.1 hm).2
          have hremove := ensures_removeIndexMembers (s := { s with script := script' }) hstale
          exact hremove.mono (fun r t ht => ⟨(tended_script script').trans ht.1,
            fun hs => (ht.2.2 (hscript' (hscript hs))).1⟩)
        · exact ⟨tended_script script', fun hs => absurd (hscript hs) hne⟩
    refine hpage.bind (fun _ t ht => ?_) (fun _ _ ht => ht)
    exact (ih t).mono (fun _ u hu => ⟨ht.1.trans hu.1, fun hs => hu.2 (ht.2 hs)⟩)

/-- A command of the write. -/
theorem Writing.command (h : cfg.Writing e key packed s t) (f : MarkState → MarkState)
    (hscript : ∀ u, (f u).script = u.script)
    (hf : ∀ u, cfg.Writing e key packed s u → cfg.Writing e key packed s (f u)) :
    Ensures (command f) t (fun _ u => cfg.Writing e key packed s u
      ∧ (t.script = [] → u.script = [])) :=
  ensures_command (fun _ => hscript _)
    (fun hne _ script => ⟨h.script script, fun ht => absurd ht hne⟩)
    (fun script script' _ hclean => ⟨(hf _ (h.script script)).script script',
      fun ht => (hclean ht).1⟩)

/-- An attempt that may raise is noted, and does not raise. -/
theorem ensures_attempt {m : MarkM PUnit} {P : MarkState → Prop}
    (h : Ensures m s (fun _ t => P t)) :
    Ensures (attempt m) s (fun r t => P t ∧ ∃ b, r = .ok b) := by
  unfold attempt
  rw [ensures_tryCatch, ensures_bind]
  refine h.mono (fun r t ht => ?_)
  cases r with
  | ok _ => exact ⟨ht, none, rfl⟩
  | error exc => exact ⟨ht, some exc, rfl⟩

/-- **The pipeline**, whatever of it takes effect. -/
theorem Writing.execute (h : cfg.Writing e key packed s t) :
    Ensures (cfg.execute key packed) t (fun _ u => cfg.Writing e key packed s u
      ∧ (t.script = [] → u.script = [])) := by
  unfold RedisEmbeddingStore.execute
  split
  · refine (ensures_attempt (h.command (RedisEmbeddingStore.setVector key packed) (fun _ => rfl)
      (fun _ hu => hu.setVector))).bind
      (fun value u hu => ?_) (fun exc u hu => ?_)
    · obtain ⟨⟨hwriting, hclean⟩, -⟩ := hu
      refine (ensures_attempt (hwriting.command (RedisEmbeddingStore.addMember key) (fun _ => rfl)
        (fun _ hu => hu.addMember))).bind
        (fun member v hv => ?_) (fun exc v hv => ?_)
      · obtain ⟨⟨hwriting', hclean'⟩, -⟩ := hv
        split
        · exact ⟨hwriting', fun ht => hclean' (hclean ht)⟩
        · exact ⟨hwriting', fun ht => hclean' (hclean ht)⟩
      · obtain ⟨-, b, hb⟩ := hv
        cases hb
    · obtain ⟨-, b, hb⟩ := hu
      cases hb
  · exact h.command _ (fun _ => rfl) (fun _ hu => hu.setVector.addMember)

variable (cfg) (e) in
/-- **A search that has found nothing.** -/
structure NoneFound (s t : MarkState) : Prop where
  value : s.valueWritten = false
  member : s.memberWritten = false
  tended : cfg.Tended e s t
  new : ¬ cfg.Duplicate e s
  compared : cfg.backendMode = .scan →
    ∀ m ∈ t.redis.index, cfg.verdict e (s.redis.vectors m) ≠ .stale
  indexed : cfg.backendMode = .redisearch →
    t.dimensions = some (cfg.dims e) ∧ t.redis.searchIndex = some (cfg.dims e)

/-- **Nothing similar was found**, so the vector may be written. -/
theorem NoneFound.writing (h : cfg.NoneFound e s t) (hpack : cfg.pack e = .ok packed) :
    cfg.Writing e key packed s t := by
  refine h.tended.writing h.value h.new hpack h.member h.compared (fun hmode => ?_)
  obtain ⟨hdimensions, hindex⟩ := h.indexed hmode
  rw [Ready, if_pos hdimensions]
  exact hindex

/-- The vector and the index are written, or pruning has raised, or the store is full. -/
theorem NoneFound.addToIndex (h : cfg.NoneFound e s t) (hmode : cfg.backendMode = .scan)
    (hpack : cfg.pack e = .ok packed) :
    Ensures (cfg.addToIndex key packed) t (fun _ u => cfg.Attempted e key s u
      ∧ (t.script = [] → u.script = [])) := by
  unfold RedisEmbeddingStore.addToIndex
  rw [ensures_bind, ensures_get]
  dsimp only
  refine (ensures_prunePages _ t).bind (fun _ u hu => ?_)
    (fun _ u hu => ⟨.inl (h.tended.trans hu.1), hu.2⟩)
  obtain ⟨hpruned, hclean⟩ := hu
  have htended : cfg.Tended e s u := h.tended.trans hpruned
  rw [ensures_bind]
  refine ensures_await (fun script hscript => ?_)
    (fun hne exc script => ⟨.inl (htended.trans (tended_script script)),
      fun ht => absurd (hclean ht) hne⟩)
  dsimp only
  rw [ensures_bind, ensures_get]
  dsimp only
  split
  · exact ⟨.inl (htended.trans (tended_script script)), fun ht => hscript (hclean ht)⟩
  · have hwriting : cfg.Writing e key packed s u := by
      refine htended.writing h.value h.new hpack h.member ?_ ?_
      · exact fun hscan m hm => h.compared hscan m (hpruned.index hm)
      · exact fun hsearch => absurd (hmode.symm.trans hsearch) (by rintro ⟨⟩)
    refine (hwriting.script script).execute.mono (fun _ v hv => ?_)
    exact ⟨.inr ⟨packed, hv.1⟩, fun ht => hv.2 (hscript (hclean ht))⟩

/-- The hash is written, and its time to live; the search index is there already. -/
theorem NoneFound.addHash (h : cfg.NoneFound e s t) (hmode : cfg.backendMode = .redisearch)
    (hpack : cfg.pack e = .ok packed) (ttlSeconds : Option ℤ) :
    Ensures (cfg.addHash key e packed ttlSeconds) t (fun _ u => cfg.Attempted e key s u
      ∧ (t.script = [] → u.script = [])) := by
  unfold RedisEmbeddingStore.addHash ensureRedisearchIndex
  rw [ensures_bind, ensures_bind, ensures_get]
  dsimp only
  rw [if_pos (h.indexed hmode).1, ensures_pure]
  dsimp only
  have hwriting : cfg.Writing e key packed s t := h.writing hpack
  refine (hwriting.command (RedisEmbeddingStore.setVector key packed) (fun _ => rfl)
    (fun _ hu => hu.setVector)).bind (fun _ u hu => ?_)
    (fun _ u hu => ⟨.inr ⟨packed, hu.1⟩, hu.2⟩)
  cases ttlSeconds with
  | none => exact ⟨.inr ⟨packed, hu.1⟩, hu.2⟩
  | some ttl =>
    exact (hu.1.command id (fun _ => rfl) (fun _ hv => hv)).mono
      (fun _ v hv => ⟨.inr ⟨packed, hv.1⟩, fun ht => hv.2 (hu.2 ht)⟩)

theorem NoneFound.redisAdd (h : cfg.NoneFound e s t) (ttlSeconds : Option ℤ) :
    Ensures (cfg.redisAdd key e ttlSeconds) t (fun _ u => cfg.Attempted e key s u
      ∧ (t.script = [] → u.script = [])) := by
  unfold RedisEmbeddingStore.redisAdd
  split
  · exact ⟨.inl h.tended, id⟩
  · cases hpack : cfg.pack e with
    | error exc => exact ⟨.inl h.tended, id⟩
    | ok packed =>
      cases hmode : cfg.backendMode with
      | scan => exact h.addToIndex hmode hpack
      | redisearch => exact h.addHash hmode hpack ttlSeconds

/-! ## The call -/

variable (cfg) (e) (key) in
/-- **What a call does**: an attempt, and without a failure it reports a duplicate exactly if
there is one. -/
structure Marks (s : MarkState) (r : Except Exc Bool) (t : MarkState) : Prop where
  attempted : cfg.Attempted e key s t
  clean : s.script = [] → t.script = [] ∧ (r = .ok false ↔ cfg.Duplicate e s)

/-- What is awaited before. -/
theorem ensures_await_marks {m : MarkM Bool}
    (h : ∀ script, Ensures m { s with script } (cfg.Marks e key { s with script })) :
    Ensures (do await; m) s (cfg.Marks e key s) := by
  rw [ensures_bind]
  refine ensures_await (fun script hscript => (h script).mono (fun r t ht => ?_))
    (fun hne exc script => ⟨.inl (tended_script script), fun hs => absurd hs hne⟩)
  refine ⟨ht.attempted.imp ?_ ?_, fun hs => ht.clean (hscript hs)⟩
  · exact fun h => (tended_script script).trans h
  · exact fun ⟨packed, h⟩ => ⟨packed, h.new, h.packs, h.vectors, h.kept, h.added, h.compared,
      h.ready, h.indexed⟩

/-- What is awaited after, whether the call raises or not. -/
theorem ensures_ensuring_marks {m : MarkM Bool} (h : Ensures m s (cfg.Marks e key s)) :
    Ensures (ensuring m await) s (cfg.Marks e key s) := by
  rw [ensures_ensuring]
  refine h.mono (fun r t ht => ?_)
  refine ensures_await (fun script hscript => ?_) (fun hne exc script => ?_)
  · exact ⟨ht.attempted.script script, fun hs => ⟨hscript (ht.clean hs).1, (ht.clean hs).2⟩⟩
  · exact ⟨ht.attempted.script script, fun hs => absurd (ht.clean hs).1 hne⟩

/-- A wait afterwards marks nothing else. -/
theorem ensures_bind_await_marks {m : MarkM Bool} (h : Ensures m s (cfg.Marks e key s)) :
    Ensures (do let b ← m; await; pure b) s (cfg.Marks e key s) := by
  refine h.bind (fun b t ht => ?_) (fun _ _ ht => ht)
  rw [ensures_bind]
  refine ensures_await (fun script hscript => ?_) (fun hne exc script => ?_)
  · exact ⟨ht.attempted.script script, fun hs => ⟨hscript (ht.clean hs).1, (ht.clean hs).2⟩⟩
  · exact ⟨ht.attempted.script script, fun hs => absurd (ht.clean hs).1 hne⟩

variable (cfg) in
/-- **The search and the write.** -/
theorem ensures_checkThenAdd (key : String) (ttlSeconds : Option ℤ) (s : MarkState)
    (hvalue : s.valueWritten = false) (hmember : s.memberWritten = false) :
    Ensures (cfg.checkThenAdd key ttlSeconds) s (cfg.Marks (cfg.embed key) key s) := by
  unfold checkThenAdd
  refine (ensures_redisExists s).bind (fun hit t ht => ?_) (fun exc t ht => ?_)
  · cases hit with
    | true =>
      show Ensures (do await; pure false) t _
      rw [ensures_bind]
      refine ensures_await (fun script hscript => ?_) (fun hne exc script => ?_)
      · exact ⟨.inl (ht.tended.trans (tended_script script)),
          fun hs => ⟨hscript (ht.clean hs).1, iff_of_true rfl (ht.found rfl)⟩⟩
      · exact ⟨.inl (ht.tended.trans (tended_script script)),
          fun hs => absurd (ht.clean hs).1 hne⟩
    | false =>
      show Ensures (do await; cfg.redisAdd key (cfg.embed key) ttlSeconds; await; pure true) t _
      have hnew : ¬ cfg.Duplicate (cfg.embed key) s := ht.new rfl
      rw [ensures_bind]
      refine ensures_await (fun script hscript => ?_) (fun hne exc script => ?_)
      · dsimp only
        have hnone : cfg.NoneFound (cfg.embed key) s { t with script } :=
          { value := hvalue
            member := hmember
            tended := ht.tended.trans (tended_script script)
            new := hnew
            compared := ht.compared rfl
            indexed := ht.indexed rfl }
        refine (hnone.redisAdd ttlSeconds).bind (fun _ u hu => ?_) (fun exc u hu => ?_)
        · rw [ensures_bind]
          refine ensures_await (fun script' hscript' => ?_) (fun hne exc script' => ?_)
          · exact ⟨hu.1.script script', fun hs => ⟨hscript' (hu.2 (hscript (ht.clean hs).1)),
              iff_of_false (by rintro ⟨⟩) hnew⟩⟩
          · exact ⟨hu.1.script script',
              fun hs => absurd (hu.2 (hscript (ht.clean hs).1)) hne⟩
        · exact ⟨hu.1, fun hs =>
            ⟨hu.2 (hscript (ht.clean hs).1), iff_of_false (by rintro ⟨⟩) hnew⟩⟩
      · exact ⟨.inl (ht.tended.trans (tended_script script)),
          fun hs => absurd (ht.clean hs).1 hne⟩
  · refine ⟨.inl ht.tended, fun hs =>
      ⟨(ht.clean hs).1, iff_of_false (by rintro ⟨⟩) (fun hdup => ?_)⟩⟩
    exact absurd ((ht.clean hs).2 hdup) (by rintro ⟨⟩)

variable (cfg) in
/-- **`mark_if_new`.** -/
theorem ensures_markIfNew (key : String) {ttlSeconds : Option ℤ}
    (httl : ¬ ∃ ttl ∈ ttlSeconds, ttl ≤ 0) (s : MarkState)
    (hvalue : s.valueWritten = false) (hmember : s.memberWritten = false) :
    Ensures (cfg.markIfNew key ttlSeconds) s (cfg.Marks (cfg.embed key) key s) := by
  unfold markIfNew
  rw [if_neg httl]
  refine ensures_await_marks (fun script => ensures_await_marks (fun script => ?_))
  unfold locked
  refine ensures_await_marks (fun script => ensures_await_marks (fun script => ?_))
  unfold renewMarkLock
  refine ensures_ensuring_marks (ensures_ensuring_marks (ensures_bind_await_marks ?_))
  exact ensures_checkThenAdd cfg key ttlSeconds _ hvalue hmember

/-! ## A retry -/

/-- The store before a later call, which meets no failure. -/
def later (s : MarkState) : MarkState :=
  { redis := s.redis, dimensions := s.dimensions }

/-- A call is made, and meets these replies. -/
def start (redis : EmbeddingKeys) (dimensions : Option ℕ) (script : List Reply) : MarkState :=
  { redis, dimensions, script }

variable (cfg) in
/-- **A call that raises does not make a retry report a duplicate**: it does so only if it
would have without the failed attempt. -/
def NotDropped (key : String) (ttlSeconds : Option ℤ) (s : MarkState) : Prop :=
  ∀ exc t, cfg.markIfNew key ttlSeconds s = .error exc t →
    (∃ u, cfg.markIfNew key ttlSeconds (later t) = .ok false u) →
    ∃ u, cfg.markIfNew key ttlSeconds (later s) = .ok false u

variable (cfg) in
/-- **The failed attempt has left a vector that the item is similar to**: its own, written
before the failure, if the index has its key or if it is found without one; or one that was
there and to which the index leads now. -/
def LeftSimilar (key : String) (s t : MarkState) : Prop :=
  match cfg.backendMode with
  | .redisearch =>
    t.valueWritten = true
      ∧ ∃ packed, cfg.pack (cfg.embed key) = .ok packed ∧ cfg.near (cfg.embed key) packed = true
  | .scan =>
    (t.valueWritten = true
        ∧ (∃ packed, cfg.pack (cfg.embed key) = .ok packed
          ∧ cfg.similar (cfg.embed key) packed = true)
        ∧ (t.memberWritten = true ∨ (key ∈ s.redis.index
          ∧ cfg.verdict (cfg.embed key) (s.redis.vectors key) ≠ .stale)))
      ∨ (t.valueWritten = false ∧ t.memberWritten = true
        ∧ cfg.verdict (cfg.embed key) (s.redis.vectors key) = .similar)

/-- An embedding is compared with what it is packed to. -/
theorem verdict_packed (hpack : cfg.pack e = .ok packed) :
    cfg.verdict e (some packed) = if cfg.similar e packed then .similar else .different := by
  have hlength := cfg.length_pack e packed hpack
  unfold verdict
  dsimp only
  rw [if_neg (by omega), if_neg (by omega)]

/-- What is similar now was there before. -/
theorem Tended.duplicate (h : cfg.Tended e s t) (hdup : cfg.Duplicate e t) :
    cfg.Duplicate e s := by
  unfold Duplicate at hdup ⊢
  cases hmode : cfg.backendMode with
  | scan =>
    rw [hmode] at hdup
    obtain ⟨m, hm, hsimilar⟩ := hdup
    rw [h.vectors] at hsimilar
    exact ⟨m, h.index hm, hsimilar⟩
  | redisearch =>
    rw [hmode] at hdup
    obtain ⟨hpacks, hready, hknn⟩ := hdup
    rw [h.vectors] at hknn
    exact ⟨hpacks, h.ready hready, hknn⟩

/-- **After a write the store has a duplicate exactly if it has left one.** -/
theorem Writing.duplicate_iff (h : cfg.Writing (cfg.embed key) key packed s t) :
    cfg.Duplicate (cfg.embed key) t ↔ cfg.LeftSimilar key s t := by
  have hnew := h.new
  have hcompared := h.compared
  have hindexed := h.indexed
  unfold Duplicate at hnew ⊢
  unfold LeftSimilar
  cases hmode : cfg.backendMode with
  | scan =>
    rw [hmode] at hnew hcompared
    dsimp only at hnew ⊢
    -- another member of the index is the one it was
    have hother : ∀ m, m ≠ key → t.redis.vectors m = s.redis.vectors m := by
      intro m hm
      rw [h.vectors]
      split
      · exact Function.update_of_ne hm _ _
      · rfl
    cases hvalue : t.valueWritten with
    | false =>
      have hvectors : t.redis.vectors = s.redis.vectors := by
        rw [h.vectors, hvalue]
        rfl
      rw [hvectors]
      constructor
      · rintro ⟨m, hm, hsimilar⟩
        rcases hcompared rfl m hm with ⟨hs, -⟩ | ⟨hmember, rfl⟩
        · exact absurd ⟨m, hs, hsimilar⟩ hnew
        · exact .inr ⟨rfl, hmember, hsimilar⟩
      · rintro (⟨hfalse, -⟩ | ⟨-, hmember, hsimilar⟩)
        · cases hfalse
        · exact ⟨key, h.added hmember, hsimilar⟩
    | true =>
      have hkey : cfg.verdict (cfg.embed key) (t.redis.vectors key)
          = if cfg.similar (cfg.embed key) packed then .similar else .different := by
        rw [h.vectors, hvalue, if_pos rfl, Function.update_self]
        exact verdict_packed h.packs
      constructor
      · rintro ⟨m, hm, hsimilar⟩
        by_cases hmkey : m = key
        · subst hmkey
          rw [hkey] at hsimilar
          refine .inl ⟨rfl, ⟨packed, h.packs, ?_⟩, ?_⟩
          · by_contra hnot
            rw [if_neg hnot] at hsimilar
            cases hsimilar
          · exact (hcompared rfl m hm).symm.imp_left And.left
        · rw [hother m hmkey] at hsimilar
          rcases hcompared rfl m hm with ⟨hs, -⟩ | ⟨-, heq⟩
          · exact absurd ⟨m, hs, hsimilar⟩ hnew
          · exact absurd heq hmkey
      · rintro (⟨-, ⟨packed', hpack, hsimilar⟩, hlisted⟩ | ⟨hfalse, -⟩)
        · obtain rfl : packed = packed' := Except.ok.inj (h.packs.symm.trans hpack)
          refine ⟨key, ?_, hkey.trans (if_pos hsimilar)⟩
          rcases hlisted with hmember | ⟨hs, hstale⟩
          · exact h.added hmember
          · exact h.kept key hs hstale
        · cases hfalse
  | redisearch =>
    rw [hmode] at hnew hindexed
    dsimp only at hnew ⊢
    have hready := hindexed rfl
    have hknn : ¬ cfg.knn s.redis.vectors (cfg.embed key) = true :=
      fun hknn => hnew ⟨⟨packed, h.packs⟩, h.ready hready, hknn⟩
    constructor
    · rintro ⟨-, -, hfound⟩
      have hvalue : t.valueWritten = true := by
        by_contra hvalue
        rw [h.vectors, if_neg hvalue] at hfound
        exact hknn hfound
      obtain ⟨key', packed', hvector, hlength, hnear⟩ := (cfg.knn_iff _ _).1 hfound
      rw [h.vectors, if_pos hvalue] at hvector
      by_cases hkey : key' = key
      · rw [hkey, Function.update_self] at hvector
        obtain rfl := Option.some.inj hvector
        exact ⟨hvalue, packed, h.packs, hnear⟩
      · rw [Function.update_of_ne hkey] at hvector
        exact absurd ((cfg.knn_iff _ _).2 ⟨key', packed', hvector, hlength, hnear⟩) hknn
    · rintro ⟨hvalue, packed', hpack, hnear⟩
      refine ⟨⟨packed, h.packs⟩, hready, (cfg.knn_iff _ _).2 ⟨key, packed', ?_, ?_, hnear⟩⟩
      · rw [h.vectors, if_pos hvalue, Function.update_self, h.packs.symm.trans hpack |> Except.ok.inj]
      · exact cfg.length_pack _ _ hpack

/-- **A later call reports a duplicate** if there is one. -/
theorem markIfNew_later_iff {key : String} {ttlSeconds : Option ℤ}
    (httl : ¬ ∃ ttl ∈ ttlSeconds, ttl ≤ 0) (s : MarkState) :
    (∃ u, cfg.markIfNew key ttlSeconds (later s) = .ok false u)
      ↔ cfg.Duplicate (cfg.embed key) s := by
  have hmarks := ensures_markIfNew cfg key httl (later s) rfl rfl
  unfold Ensures at hmarks
  cases hrun : cfg.markIfNew key ttlSeconds (later s) with
  | ok b u =>
    rw [hrun] at hmarks
    have hiff := (hmarks.clean rfl).2
    constructor
    · rintro ⟨u', hu⟩
      cases hu
      exact hiff.1 rfl
    · intro hdup
      obtain rfl : b = false := Except.ok.inj (hiff.2 hdup)
      exact ⟨u, rfl⟩
  | error exc u =>
    rw [hrun] at hmarks
    refine iff_of_false (fun ⟨u', hu⟩ => nomatch hu) (fun hdup => ?_)
    exact absurd ((hmarks.clean rfl).2.2 hdup) (by rintro ⟨⟩)

/-- **A failed attempt is not reported as a duplicate** unless it has left a vector that the
item is similar to. -/
theorem notDropped_iff (cfg : RedisEmbeddingStore E) (key : String) (ttlSeconds : Option ℤ)
    (redis : EmbeddingKeys) (dimensions : Option ℕ) (script : List Reply) :
    NotDropped cfg key ttlSeconds (start redis dimensions script) ↔
      ∀ exc t, cfg.markIfNew key ttlSeconds (start redis dimensions script) = .error exc t →
        ¬ LeftSimilar cfg key (start redis dimensions script) t := by
  unfold NotDropped
  refine forall₃_congr (fun exc t hrun => ?_)
  by_cases httl : ∃ ttl ∈ ttlSeconds, ttl ≤ 0
  · have hraises : ∀ s, cfg.markIfNew key ttlSeconds s = .error
        (.exception "ValueError" "ttl_seconds must be greater than zero when provided.") s := by
      intro s
      unfold markIfNew
      rw [if_pos httl]
      rfl
    rw [hraises] at hrun
    obtain ⟨-, rfl⟩ := EStateM.Result.error.inj hrun
    refine iff_of_true (fun ⟨u, hu⟩ => ⟨u, hu⟩) (fun hleft => ?_)
    unfold LeftSimilar at hleft
    cases hmode : cfg.backendMode with
    | scan =>
      rw [hmode] at hleft
      rcases hleft with ⟨h, -⟩ | ⟨-, h, -⟩
      · cases h
      · cases h
    | redisearch =>
      rw [hmode] at hleft
      cases hleft.1
  · rw [markIfNew_later_iff httl, markIfNew_later_iff httl]
    have hmarks := (ensures_markIfNew cfg key httl (start redis dimensions script) rfl
      rfl).of_error hrun
    rcases hmarks.attempted with htended | ⟨packed, hwriting⟩
    · refine iff_of_true htended.duplicate (fun hleft => ?_)
      have hvalue : t.valueWritten = false := htended.value
      have hmember : t.memberWritten = false := htended.member
      unfold LeftSimilar at hleft
      cases hmode : cfg.backendMode with
      | scan =>
        rw [hmode] at hleft
        rcases hleft with ⟨h, -⟩ | ⟨-, h, -⟩
        · exact absurd (hvalue.symm.trans h) Bool.false_ne_true
        · exact absurd (hmember.symm.trans h) Bool.false_ne_true
      | redisearch =>
        rw [hmode] at hleft
        exact absurd (hvalue.symm.trans hleft.1) Bool.false_ne_true
    · rw [hwriting.duplicate_iff]
      constructor
      · intro h hleft
        exact hwriting.new (h hleft)
      · intro h hleft
        exact absurd hleft h

/-! ## A store of one embedding -/

/-- Every item has the embedding `1.0`, which is similar to itself. -/
def unitStore : RedisEmbeddingStore Unit where
  embed := fun _ => ()
  dims := fun _ => 1
  pack := fun _ => .ok [0, 0, 128, 63]
  length_pack := fun _ packed h => by
    obtain rfl := Except.ok.inj h
    rfl
  similar := fun _ packed => packed == [0, 0, 128, 63]
  -- there is no search index in scan mode
  near := fun _ _ => false
  knn := fun _ _ => false
  knn_iff := by simp
  sscan := fun index => [index.sort (· ≤ ·)]
  mem_sscan := by simp

def emptyKeys : EmbeddingKeys where
  vectors := fun _ => none
  index := ∅
  searchIndex := none

/-- The connection breaks when the pipeline has been executed, before its reply. -/
def brokenAfterPipeline : List Reply :=
  List.replicate 10 .ok ++ [.raises (.exception "ConnectionError" "")]

/-- What a call answers, if it does not raise. -/
def answer : EStateM.Result Exc MarkState Bool → Option Bool
  | .ok b _ => some b
  | .error _ _ => none

/-- What a retry answers, if the call raises. -/
def retryAnswer (key : String) (s : MarkState) : Option Bool :=
  match unitStore.markIfNew key none s with
  | .ok _ _ => none
  | .error _ t => answer (unitStore.markIfNew key none (later t))

theorem answer_eq_some_iff {r : EStateM.Result Exc MarkState Bool} {b : Bool} :
    answer r = some b ↔ ∃ u, r = .ok b u := by
  cases r <;> simp [answer]

/-- **The item is dropped** when the call is tried again, for its own embedding is there. -/
theorem not_notDropped_brokenAfterPipeline :
    ¬ NotDropped unitStore "item" none (start emptyKeys none brokenAfterPipeline) := by
  intro h
  have hfirst : answer (unitStore.markIfNew "item" none
      (later (start emptyKeys none brokenAfterPipeline))) = some true := by
    decide +kernel
  have hretry : retryAnswer "item" (start emptyKeys none brokenAfterPipeline) = some false := by
    decide +kernel
  unfold retryAnswer at hretry
  cases hrun : unitStore.markIfNew "item" none (start emptyKeys none brokenAfterPipeline) with
  | ok b t =>
    rw [hrun] at hretry
    cases hretry
  | error exc t =>
    rw [hrun] at hretry
    have hdropped := answer_eq_some_iff.2 (h exc t hrun (answer_eq_some_iff.1 hretry))
    rw [hfirst] at hdropped
    cases hdropped

end RedisEmbeddingStore

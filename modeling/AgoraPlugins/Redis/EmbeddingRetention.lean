import AgoraPlugins.Machine
import AgoraPlugins.Redis.EmbeddingStore

/-!
# What the embedding store retains

The scan backend keeps each embedding as a value of its own, which may expire, and all of their keys
in a set, the index. A call goes through the index page by page. A search takes out of it what it
cannot compare with its own embedding: keys whose value is gone, values that are no vectors, and
also vectors of another dimension, which it says in a warning. The pruning before a write takes out
only the first two.

So an entry stays in the index as long as it has not expired and nobody searches for an embedding of
another dimension, and until then a search for its own embedding comes to it. One such search is
enough to lose it, though its value stays.

Calls come one after the other, and any of them may raise between two commands. Time passes at any
moment.
-/

open Machine

namespace EmbeddingRetention

variable {E : Type}

/-! ## The store -/

/-- **A value**, and when it expires. The last field only records that the call has returned that
wrote it. -/
structure Stored where
  packed : List UInt8
  expiresAt : Option ℕ
  added : Bool

/-- A call, with the embedding that the provider has made. -/
inductive Call (E : Type) where
  | add (key : String) (e : E)
  | exists (e : E)
  | markIfNew (key : String) (e : E) (ttlSeconds : Option ℤ)

/-- **Where a call is.** -/
inductive Pc (E : Type) where
  | idle
  /-- what is to be written after it, the rest of a page with the values, and the pages left -/
  | searching (e : E) (mark : Option (String × Option ℤ))
    (members : List (String × Option (List UInt8))) (pages : List (List String))
  /-- what is to be written after it, the stale keys of a page, and the pages left -/
  | pruning (key : String) (packed : List UInt8) (ttlSeconds : Option ℤ) (stale : List String)
    (pages : List (List String))
  /-- what is written, and which of the two commands are executed -/
  | writing (key : String) (packed : List UInt8) (ttlSeconds : Option ℤ) (set sadd : Bool)
  deriving DecidableEq

/-- **The keys of the store**, its index, the time, and where the call is. -/
structure State (E : Type) where
  values : String → Option Stored
  index : Finset String
  now : ℕ
  pc : Pc E

/-- What can happen. -/
inductive Event (E : Type) where
  | called (call : Call E)
  /-- the next page is read, with its values -/
  | page
  /-- the next member is compared, or the stale ones are taken out -/
  | member
  /-- there are no more pages -/
  | scanned
  /-- the commands of the pipeline: a transaction, or one of two in a cluster -/
  | executed
  | executedSet
  | executedSadd
  | returned
  | raised
  | elapsed (ms : ℕ)

namespace State

variable (cfg : RedisEmbeddingStore E) (s : State E)

def withPc (pc : Pc E) : State E := { s with pc := pc }

/-- **`GET`**. -/
def get (key : String) : Option (List UInt8) :=
  (s.values key).bind (fun v =>
    if v.expiresAt.all (fun t => s.now < t) then some v.packed else none)

/-- `SREM`. -/
def srem (members : List String) : State E :=
  { s with index := s.index.filter (fun m => m ∉ members) }

/-- The values of a page. -/
def getAll (page : List String) : List (String × Option (List UInt8)) :=
  page.map (fun m => (m, s.get m))

/-- `_redis_add`, up to the pruning. -/
def add (key : String) (e : E) (ttlSeconds : Option ℤ) : State E :=
  if key ∈ RedisEmbeddingStore.reservedKeys then s.withPc .idle
  else
    match cfg.pack e with
    | .error _ => s.withPc .idle
    | .ok packed => s.withPc (.pruning key packed ttlSeconds [] (cfg.sscan s.index))

/-- The search begins. -/
def search (e : E) (mark : Option (String × Option ℤ)) : State E :=
  s.withPc (.searching e mark [] (cfg.sscan s.index))

/-- A call begins. -/
def call : Call E → State E
  | .add key e => s.add cfg key e none
  | .exists e => s.search cfg e none
  | .markIfNew key e ttlSeconds =>
    if ∃ ttl ∈ ttlSeconds, ttl ≤ 0 then s.withPc .idle else s.search cfg e (some (key, ttlSeconds))

/-- The next page. -/
def page : Pc E → Option (State E)
  | .searching e mark [] (page :: pages) =>
    some (s.withPc (.searching e mark (s.getAll page) pages))
  | .pruning key packed ttlSeconds [] (page :: pages) =>
    some (s.withPc (.pruning key packed ttlSeconds
      (page.filter (fun m => RedisEmbeddingStore.malformed (s.get m))) pages))
  | _ => none

/-- **A member of a page.** One that is similar ends the search. -/
def member : Pc E → Option (State E)
  | .searching e mark ((m, packed) :: members) pages =>
    some (match cfg.verdict e packed with
      | .stale => (s.srem [m]).withPc (.searching e mark members pages)
      | .similar => s.withPc .idle
      | .different => s.withPc (.searching e mark members pages))
  | .pruning key packed ttlSeconds (m :: stale) pages =>
    some ((s.srem (m :: stale)).withPc (.pruning key packed ttlSeconds [] pages))
  | _ => none

/-- The end of the pages: of a search that has found nothing, and of the pruning. -/
def scanned : Pc E → Option (State E)
  | .searching e (some (key, ttlSeconds)) [] [] => some (s.add cfg key e ttlSeconds)
  | .searching _ none [] [] => some (s.withPc .idle)
  | .pruning key packed ttlSeconds [] [] =>
    some (if cfg.maxEntries ≤ s.index.card then s.withPc .idle
      else s.withPc (.writing key packed ttlSeconds false false))
  | _ => none

/-- `SET`, with the time to live. -/
def set (key : String) (packed : List UInt8) (ttlSeconds : Option ℤ) : State E :=
  { s with
    values := Function.update s.values key
      (some ⟨packed, ttlSeconds.map (fun ttl => s.now + 1000 * ttl.toNat), false⟩) }

/-- `SADD`. -/
def sadd (key : String) : State E := { s with index := insert key s.index }

/-- The pipeline as a transaction. -/
def execute : Pc E → Option (State E)
  | .writing key packed ttlSeconds false false =>
    if cfg.redisCluster then none
    else some (((s.set key packed ttlSeconds).sadd key).withPc
      (.writing key packed ttlSeconds true true))
  | _ => none

/-- The `SET` of a pipeline in a cluster. -/
def executeSet : Pc E → Option (State E)
  | .writing key packed ttlSeconds false sadd =>
    if cfg.redisCluster then
      some ((s.set key packed ttlSeconds).withPc (.writing key packed ttlSeconds true sadd))
    else none
  | _ => none

/-- The `SADD` of a pipeline in a cluster. -/
def executeSadd : Pc E → Option (State E)
  | .writing key packed ttlSeconds set false =>
    if cfg.redisCluster then
      some ((s.sadd key).withPc (.writing key packed ttlSeconds set true))
    else none
  | _ => none

/-- The write returns, and with it the call. -/
def finish : Pc E → Option (State E)
  | .writing key _ _ true true =>
    some { s.withPc .idle with
      values := Function.update s.values key
        ((s.values key).map (fun v => { v with added := true })) }
  | _ => none

end State

variable (cfg : RedisEmbeddingStore E)

/-- **One event.** -/
def step (s : State E) : Event E → Option (State E)
  | .called call =>
    match s.pc with
    | .idle => some (s.call cfg call)
    | _ => none
  | .page => s.page s.pc
  | .member => s.member cfg s.pc
  | .scanned => s.scanned cfg s.pc
  | .executed => s.execute cfg s.pc
  | .executedSet => s.executeSet cfg s.pc
  | .executedSadd => s.executeSadd cfg s.pc
  | .returned => s.finish s.pc
  | .raised => some (s.withPc .idle)
  | .elapsed ms => some { s with now := s.now + ms }

/-! ## What is kept, and what is lost -/

/-- **What a step takes out of the index** has expired, or is no vector, or has another dimension
than what is searched for. -/
def RemovesOnly (s t : State E) : Prop :=
  ∀ m ∈ s.index, m ∉ t.index → ∀ packed, s.get m = some packed → packed.length % 4 = 0 →
    ∃ e mark members pages, s.pc = .searching e mark members pages
      ∧ packed.length ≠ 4 * cfg.dims e

/-- **An entry**: it has been added by a call that returned, and has not expired. -/
def State.Has (s : State E) (key : String) (packed : List UInt8) : Prop :=
  ∃ v, s.values key = some v ∧ v.added = true ∧ v.packed = packed ∧ s.get key = some packed

/-- What a call searches for. -/
def Call.query : Call E → Option E
  | .add _ _ => none
  | .exists e => some e
  | .markIfNew _ e _ => some e

/-- **Nobody searches for another dimension** than that of the value under this key. -/
def SameDimension (key : String) (s : State E) : Event E → Prop
  | .called call => ∀ e ∈ call.query, ∀ packed, s.get key = some packed →
      packed.length = 4 * cfg.dims e
  | _ => True

instance (key : String) (s : State E) : (e : Event E) → Decidable (SameDimension cfg key s e)
  | .called call => inferInstanceAs (Decidable (∀ e ∈ call.query, ∀ packed ∈ s.get key,
      packed.length = 4 * cfg.dims e))
  | .page | .member | .scanned | .executed | .executedSet | .executedSadd | .returned | .raised
  | .elapsed _ => isTrue trivial

/-- `exists` returns `False` in this step. -/
def NotFound (s : State E) (e : E) : Event E → Prop
  | .scanned => s.pc = .searching e none [] []
  | _ => False

namespace State

variable {cfg : RedisEmbeddingStore E} {s t : State E}

@[simp] theorem get_withPc (pc : Pc E) (key : String) : (s.withPc pc).get key = s.get key := rfl

@[simp] theorem get_srem (members : List String) (key : String) :
    (s.srem members).get key = s.get key := rfl

@[simp] theorem get_sadd (m key : String) : (s.sadd m).get key = s.get key := rfl

/-- Time only takes values away. -/
theorem get_elapsed {ms : ℕ} {key : String} {packed : List UInt8}
    (h : ({ s with now := s.now + ms } : State E).get key = some packed) :
    s.get key = some packed := by
  unfold get at h ⊢
  obtain ⟨v, hv, h⟩ := Option.bind_eq_some_iff.1 h
  rw [hv, Option.bind_some]
  split_ifs at h with hlater
  rw [if_pos, h]
  cases hexpires : v.expiresAt with
  | none => rfl
  | some time =>
    rw [hexpires, Option.all_some, decide_eq_true_eq] at hlater
    exact decide_eq_true ((Nat.le_add_right _ _).trans_lt hlater)

theorem index_add (key : String) (e : E) (ttlSeconds : Option ℤ) :
    (s.add cfg key e ttlSeconds).index = s.index := by
  unfold add
  split_ifs
  · rfl
  · split <;> rfl

theorem mem_index_srem {members : List String} {m : String} :
    m ∈ (s.srem members).index ↔ m ∈ s.index ∧ m ∉ members := by
  unfold srem
  rw [Finset.mem_filter]

end State

open State

variable {cfg : RedisEmbeddingStore E} {s t : State E}

/-- **What a call has read** it still goes by: the values of a page, but for those that have expired
since, and the keys that were stale. -/
def Pc.Reads (get : String → Option (List UInt8)) : Pc E → Prop
  | .searching _ _ members _ => ∀ x ∈ members, ∀ packed, get x.1 = some packed → x.2 = some packed
  | .pruning _ _ _ stale _ => ∀ m ∈ stale, RedisEmbeddingStore.malformed (get m) = true
  | .idle | .writing .. => True

theorem Pc.Reads.of_le {get get' : String → Option (List UInt8)} {pc : Pc E} (h : pc.Reads get)
    (hle : ∀ m packed, get' m = some packed → get m = some packed) : pc.Reads get' := by
  cases pc with
  | searching e mark members pages => exact fun x hx packed hget => h x hx packed (hle _ _ hget)
  | pruning key packed ttlSeconds stale pages =>
    intro m hm
    cases hget : get' m with
    | none => rfl
    | some packed =>
      rw [← hle m packed hget]
      exact h m hm
  | idle => trivial
  | writing key packed ttlSeconds set sadd => trivial

theorem RemovesOnly.of_subset (h : s.index ⊆ t.index) : RemovesOnly cfg s t :=
  fun _ hm hnot => absurd (h hm) hnot

/-- A value that is stale to a search, or of another dimension. -/
theorem ne_of_verdict_stale {e : E} {packed : List UInt8}
    (h : cfg.verdict e (some packed) = .stale) (hformed : packed.length % 4 = 0) :
    packed.length ≠ 4 * cfg.dims e := by
  intro heq
  rw [RedisEmbeddingStore.verdict, if_neg (not_not.2 hformed), if_neg (by omega)] at h
  split_ifs at h

theorem reads_add (key : String) (e : E) (ttlSeconds : Option ℤ) (s : State E) :
    (s.add cfg key e ttlSeconds).pc.Reads (s.add cfg key e ttlSeconds).get := by
  unfold State.add
  split_ifs
  · trivial
  · split
    · trivial
    · exact fun m hm => absurd hm List.not_mem_nil

/-- **One step** keeps what has been read, and takes out of the index what it may. -/
theorem reads_of_step {e : Event E} (h : s.pc.Reads s.get) (hs : step cfg s e = some t) :
    t.pc.Reads t.get ∧ RemovesOnly cfg s t := by
  cases e with
  | called call =>
    simp only [step] at hs
    split at hs
    · cases hs
      cases call with
      | add key e =>
        exact ⟨reads_add key e none s, .of_subset (index_add key e none).ge⟩
      | «exists» e => exact ⟨fun x hx => absurd hx List.not_mem_nil, .of_subset le_rfl⟩
      | markIfNew key e ttlSeconds =>
        rw [State.call]
        split_ifs
        · exact ⟨trivial, .of_subset le_rfl⟩
        · exact ⟨fun x hx => absurd hx List.not_mem_nil, .of_subset le_rfl⟩
    · cases hs
  | page =>
    simp only [step, State.page] at hs
    split at hs
    · cases hs
      refine ⟨fun x hx packed hget => ?_, .of_subset le_rfl⟩
      obtain ⟨m, _, rfl⟩ := List.mem_map.1 hx
      exact hget
    · cases hs
      exact ⟨fun m hm => (List.mem_filter.1 hm).2, .of_subset le_rfl⟩
    · cases hs
  | member =>
    simp only [step, State.member] at hs
    split at hs
    · rename_i e mark m packed members pages hpc
      rw [hpc] at h
      have hrest : ∀ x ∈ members, ∀ packed, s.get x.1 = some packed → x.2 = some packed :=
        fun x hx => h x (List.mem_cons_of_mem _ hx)
      cases hs
      split
      · rename_i hverdict
        refine ⟨hrest, fun m' hm' hnot packed' hget hformed => ?_⟩
        refine ⟨e, mark, _, pages, hpc, ?_⟩
        -- what leaves the index is the member that was compared
        have hm : m' = m := by
          by_contra hne
          exact hnot (mem_index_srem.2 ⟨hm', by simpa using hne⟩)
        subst hm
        have hpacked : packed = some packed' := h _ (List.mem_cons_self ..) packed' hget
        rw [hpacked] at hverdict
        exact ne_of_verdict_stale hverdict hformed
      · exact ⟨trivial, .of_subset le_rfl⟩
      · exact ⟨hrest, .of_subset le_rfl⟩
    · rename_i key packed ttlSeconds m stale pages hpc
      rw [hpc] at h
      cases hs
      refine ⟨fun m' hm' => absurd hm' List.not_mem_nil, fun m' hm' hnot packed' hget hformed => ?_⟩
      have hmem : m' ∈ m :: stale := by
        by_contra hne
        exact hnot (mem_index_srem.2 ⟨hm', hne⟩)
      have hmalformed := h m' hmem
      rw [hget] at hmalformed
      exact absurd hformed (of_decide_eq_true hmalformed)
    · cases hs
  | scanned =>
    simp only [step, State.scanned] at hs
    split at hs
    · rename_i e key ttlSeconds hpc
      cases hs
      exact ⟨reads_add key e ttlSeconds s, .of_subset (index_add key e ttlSeconds).ge⟩
    · cases hs
      exact ⟨trivial, .of_subset le_rfl⟩
    · cases hs
      split_ifs <;> exact ⟨trivial, .of_subset le_rfl⟩
    · cases hs
  | executed =>
    simp only [step, State.execute] at hs
    split at hs
    · split_ifs at hs
      cases hs
      exact ⟨trivial, .of_subset (Finset.subset_insert _ _)⟩
    · cases hs
  | executedSet =>
    simp only [step, State.executeSet] at hs
    split at hs
    · split_ifs at hs
      cases hs
      exact ⟨trivial, .of_subset le_rfl⟩
    · cases hs
  | executedSadd =>
    simp only [step, State.executeSadd] at hs
    split at hs
    · split_ifs at hs
      cases hs
      exact ⟨trivial, .of_subset (Finset.subset_insert _ _)⟩
    · cases hs
  | returned =>
    simp only [step, State.finish] at hs
    split at hs
    · cases hs
      exact ⟨trivial, .of_subset le_rfl⟩
    · cases hs
  | raised =>
    cases hs
    exact ⟨trivial, .of_subset le_rfl⟩
  | elapsed ms =>
    cases hs
    exact ⟨h.of_le (fun _ _ => get_elapsed), .of_subset le_rfl⟩

/-! ## An entry stays -/

/-- **What is so of a key** while a call goes on: nobody searches for another dimension, and a
search for its own embedding has it before it. -/
def State.RetainsPc (cfg : RedisEmbeddingStore E) (key : String) (s : State E) : Pc E → Prop
  | .searching e _ members pages => ∀ packed, s.Has key packed →
      packed.length = 4 * cfg.dims e
        ∧ (cfg.pack e = .ok packed → (∃ page ∈ pages, key ∈ page) ∨ (key, some packed) ∈ members)
  | .pruning _ packed _ _ _ => packed.length % 4 = 0
  | .writing key' packed _ set sadd => packed.length % 4 = 0
      ∧ (key' = key → (sadd = true → key ∈ s.index)
        ∧ (set = true → ∀ v ∈ s.values key, v.packed = packed))
  | .idle => True

/-- **An entry is retained.** -/
structure State.Retains (cfg : RedisEmbeddingStore E) (key : String) (s : State E) : Prop where
  index : ∀ packed, s.Has key packed → key ∈ s.index
  formed : ∀ v ∈ s.values key, v.added = true → v.packed.length % 4 = 0
  pc : s.RetainsPc cfg key s.pc

variable {key : String}

theorem has_of_values (hvalues : t.values key = s.values key) (hnow : s.now ≤ t.now)
    {packed : List UInt8} (h : t.Has key packed) : s.Has key packed := by
  obtain ⟨v, hv, hadded, hpacked, hget⟩ := h
  refine ⟨v, hvalues ▸ hv, hadded, hpacked, ?_⟩
  obtain ⟨ms, hms⟩ := Nat.exists_eq_add_of_le hnow
  refine @get_elapsed _ _ ms _ _ ?_
  unfold State.get at hget ⊢
  dsimp only
  rw [← hms, ← hvalues]
  exact hget

/-- A step that leaves the value leaves the key in the index. -/
theorem State.Retains.of_values (h : s.Retains cfg key) (hremoves : RemovesOnly cfg s t)
    (hvalues : t.values key = s.values key) (hnow : s.now ≤ t.now)
    (hpc : t.RetainsPc cfg key t.pc) : t.Retains cfg key := by
  refine ⟨fun packed hhas => ?_, fun v hv => h.formed v (hvalues ▸ hv), hpc⟩
  have hhas' := has_of_values hvalues hnow hhas
  by_contra hnot
  obtain ⟨v, hv, hadded, rfl, hget⟩ := hhas'
  obtain ⟨e, mark, members, pages, hsearching, hne⟩ :=
    hremoves key (h.index _ ⟨v, hv, hadded, rfl, hget⟩) hnot _ hget (h.formed v hv hadded)
  have hretains := h.pc
  rw [hsearching] at hretains
  exact hne (hretains _ ⟨v, hv, hadded, rfl, hget⟩).1

theorem values_add (key' : String) (e : E) (ttlSeconds : Option ℤ) (s : State E) :
    (s.add cfg key' e ttlSeconds).values = s.values
      ∧ (s.add cfg key' e ttlSeconds).now = s.now := by
  unfold State.add
  split_ifs
  · exact ⟨rfl, rfl⟩
  · split <;> exact ⟨rfl, rfl⟩

theorem retainsPc_add (key' : String) (e : E) (ttlSeconds : Option ℤ) (s u : State E) :
    u.RetainsPc cfg key (s.add cfg key' e ttlSeconds).pc := by
  unfold State.add
  split_ifs
  · trivial
  · split
    · trivial
    · rename_i packed hpack
      show packed.length % 4 = 0
      rw [cfg.length_pack e packed hpack]
      omega

/-- A search begins with all of the index before it. -/
theorem retainsPc_search (h : s.Retains cfg key) {e : E} {mark : Option (String × Option ℤ)}
    (hdims : ∀ packed, s.get key = some packed → packed.length = 4 * cfg.dims e) :
    (s.search cfg e mark).RetainsPc cfg key (s.search cfg e mark).pc := by
  intro packed hhas
  have hhas' : s.Has key packed := hhas
  refine ⟨hdims packed ?_, fun _ => .inl ?_⟩
  · obtain ⟨v, _, _, _, hget⟩ := hhas'
    exact hget
  · exact List.mem_flatten.1 ((cfg.mem_sscan s.index key).2 (h.index packed hhas'))

/-- **A value that is written** is no entry yet, and an entry under another key stays. -/
theorem retains_set (h : s.Retains cfg key) (hremoves : RemovesOnly cfg s t) (hnow : s.now ≤ t.now)
    {key' : String} {packed : List UInt8} {ttlSeconds : Option ℤ} {expiresAt : Option ℕ}
    {set sadd sadd' : Bool} (hs : s.pc = .writing key' packed ttlSeconds set sadd)
    (hvalues : t.values = Function.update s.values key' (some ⟨packed, expiresAt, false⟩))
    (ht : t.pc = .writing key' packed ttlSeconds true sadd')
    (hsadd : key' = key → sadd' = true → key ∈ t.index) : t.Retains cfg key := by
  have hretains := h.pc
  rw [hs] at hretains
  by_cases hkey : key' = key
  · subst hkey
    have hvalue : t.values key' = some ⟨packed, expiresAt, false⟩ := by
      rw [hvalues, Function.update_self]
    refine ⟨?_, ?_, ?_⟩
    · rintro _ ⟨v, hv, hadded, _⟩
      rw [hvalue] at hv
      cases hv
      cases hadded
    · intro v hv hadded
      rw [hvalue] at hv
      cases hv
      cases hadded
    · rw [ht]
      refine ⟨hretains.1, fun _ => ⟨hsadd rfl, fun _ v hv => ?_⟩⟩
      rw [hvalue] at hv
      cases hv
      rfl
  · refine h.of_values hremoves ?_ hnow ?_
    · rw [hvalues, Function.update_of_ne (Ne.symm hkey)]
    · rw [ht]
      exact ⟨hretains.1, fun heq => absurd heq hkey⟩

/-- **One step** retains an entry, unless somebody searches for another dimension. -/
theorem retains_of_step (hsimilar : ∀ e packed, cfg.pack e = .ok packed →
      cfg.similar e packed = true)
    {e : Event E} (h : s.Retains cfg key) (hreads : s.pc.Reads s.get)
    (hguard : SameDimension cfg key s e) (hs : step cfg s e = some t) : t.Retains cfg key := by
  have hremoves := (reads_of_step hreads hs).2
  cases e with
  | called call =>
    simp only [step] at hs
    split at hs
    · cases hs
      cases call with
      | add key' e =>
        obtain ⟨hvalues, hnow⟩ := @values_add _ cfg key' e none s
        exact h.of_values hremoves (congrFun hvalues key) hnow.ge (retainsPc_add ..)
      | «exists» e =>
        exact h.of_values hremoves rfl le_rfl (retainsPc_search h (hguard e rfl))
      | markIfNew key' e ttlSeconds =>
        rw [State.call] at hremoves ⊢
        split_ifs at hremoves ⊢
        · exact h.of_values hremoves rfl le_rfl trivial
        · exact h.of_values hremoves rfl le_rfl (retainsPc_search h (hguard e rfl))
    · cases hs
  | page =>
    simp only [step, State.page] at hs
    split at hs
    · rename_i e mark page pages hpc
      cases hs
      refine h.of_values hremoves rfl le_rfl (fun packed hhas => ?_)
      have hretains := h.pc
      rw [hpc] at hretains
      obtain ⟨hdims, hahead⟩ := hretains packed hhas
      refine ⟨hdims, fun hpack => ?_⟩
      rcases hahead hpack with ⟨page', hpage', hkey⟩ | hmem
      · rcases List.mem_cons.1 hpage' with rfl | hpage'
        · obtain ⟨v, _, _, _, hget⟩ := hhas
          exact .inr (List.mem_map.2 ⟨key, hkey, Prod.ext rfl hget⟩)
        · exact .inl ⟨page', hpage', hkey⟩
      · exact absurd hmem List.not_mem_nil
    · rename_i hpc
      cases hs
      have hretains := h.pc
      rw [hpc] at hretains
      exact h.of_values hremoves rfl le_rfl hretains
    · cases hs
  | member =>
    simp only [step, State.member] at hs
    split at hs
    · rename_i e mark m value members pages hpc
      have hretains := h.pc
      rw [hpc] at hretains
      have hrest : cfg.verdict e value ≠ .similar → ∀ packed, s.Has key packed →
          packed.length = 4 * cfg.dims e ∧ (cfg.pack e = .ok packed →
            (∃ page ∈ pages, key ∈ page) ∨ (key, some packed) ∈ members) := by
        intro hverdict packed hhas
        obtain ⟨hdims, hahead⟩ := hretains packed hhas
        refine ⟨hdims, fun hpack => (hahead hpack).imp_right (fun hmem => ?_)⟩
        refine (List.mem_cons.1 hmem).resolve_left (fun heq => hverdict ?_)
        -- its own embedding would have ended the search
        rw [← (Prod.mk.inj heq).2, RedisEmbeddingStore.verdict, if_neg (by omega),
          if_neg (by omega), if_pos (hsimilar e packed hpack)]
      cases hs
      split at hremoves
      · rename_i hverdict
        exact h.of_values hremoves rfl le_rfl (hrest (by rw [hverdict]; rintro ⟨⟩))
      · exact h.of_values hremoves rfl le_rfl trivial
      · rename_i hverdict
        exact h.of_values hremoves rfl le_rfl (hrest (by rw [hverdict]; rintro ⟨⟩))
    · rename_i hpc
      cases hs
      have hretains := h.pc
      rw [hpc] at hretains
      exact h.of_values hremoves rfl le_rfl hretains
    · cases hs
  | scanned =>
    simp only [step, State.scanned] at hs
    split at hs
    · rename_i e key' ttlSeconds hpc
      cases hs
      obtain ⟨hvalues, hnow⟩ := @values_add _ cfg key' e ttlSeconds s
      exact h.of_values hremoves (congrFun hvalues key) hnow.ge (retainsPc_add ..)
    · cases hs
      exact h.of_values hremoves rfl le_rfl trivial
    · rename_i key' packed ttlSeconds hpc
      have hretains := h.pc
      rw [hpc] at hretains
      cases hs
      split_ifs at hremoves ⊢
      · exact h.of_values hremoves rfl le_rfl trivial
      · exact h.of_values hremoves rfl le_rfl
          ⟨hretains, fun _ => ⟨by rintro ⟨⟩, by rintro ⟨⟩⟩⟩
    · cases hs
  | raised =>
    cases hs
    exact h.of_values hremoves rfl le_rfl trivial
  | executed =>
    simp only [step, State.execute] at hs
    split at hs
    · rename_i key' packed ttlSeconds hpc
      split_ifs at hs
      cases hs
      exact retains_set h hremoves le_rfl hpc rfl rfl
        (fun heq _ => heq ▸ Finset.mem_insert_self _ _)
    · cases hs
  | executedSet =>
    simp only [step, State.executeSet] at hs
    split at hs
    · rename_i key' packed ttlSeconds sadd hpc
      have hretains := h.pc
      rw [hpc] at hretains
      split_ifs at hs
      cases hs
      exact retains_set h hremoves le_rfl hpc rfl rfl (fun heq => (hretains.2 heq).1)
    · cases hs
  | executedSadd =>
    simp only [step, State.executeSadd] at hs
    split at hs
    · rename_i key' packed ttlSeconds set hpc
      have hretains := h.pc
      rw [hpc] at hretains
      split_ifs at hs
      cases hs
      exact h.of_values hremoves rfl le_rfl ⟨hretains.1, fun heq =>
        ⟨fun _ => heq ▸ Finset.mem_insert_self _ _, (hretains.2 heq).2⟩⟩
    · cases hs
  | returned =>
    simp only [step, State.finish] at hs
    split at hs
    · rename_i key' packed ttlSeconds hpc
      have hretains := h.pc
      rw [hpc] at hretains
      cases hs
      by_cases hkey : key' = key
      · subst hkey
        refine ⟨fun _ _ => (hretains.2 rfl).1 rfl, fun v hv _ => ?_, trivial⟩
        have hmap : (s.values key').map (fun v => { v with added := true }) = some v :=
          (Function.update_self key' _ s.values).symm.trans hv
        obtain ⟨v', hv', rfl⟩ := Option.map_eq_some_iff.1 hmap
        rw [(hretains.2 rfl).2 rfl v' hv']
        exact hretains.1
      · exact h.of_values hremoves (Function.update_of_ne (Ne.symm hkey) _ _) le_rfl trivial
    · cases hs
  | elapsed ms =>
    cases hs
    refine h.of_values hremoves rfl (Nat.le_add_right _ _) ?_
    have hretains := h.pc
    have hfades : ∀ packed, ({ s with now := s.now + ms } : State E).Has key packed →
        s.Has key packed := fun packed hhas =>
      @has_of_values E s { s with now := s.now + ms } key rfl (Nat.le_add_right _ _) packed hhas
    show State.RetainsPc cfg key { s with now := s.now + ms } s.pc
    cases hpc : s.pc with
    | idle => trivial
    | searching e mark members pages =>
      rw [hpc] at hretains
      exact fun packed hhas => hretains packed (hfades packed hhas)
    | pruning key' packed ttlSeconds stale pages =>
      rw [hpc] at hretains
      exact hretains
    | writing key' packed ttlSeconds set sadd =>
      rw [hpc] at hretains
      exact hretains

/-! ## Runs -/

/-- **A store to begin with**: whatever is in it has been there before. -/
structure State.Initial (s : State E) : Prop where
  pc : s.pc = .idle
  added : ∀ key, ∀ v ∈ s.values key, v.added = false

theorem retains_of_initial (h : s.Initial) (key : String) : s.Retains cfg key := by
  refine ⟨?_, ?_, ?_⟩
  · rintro _ ⟨v, hv, hadded, _⟩
    rw [h.added key v hv] at hadded
    cases hadded
  · intro v hv hadded
    rw [h.added key v hv] at hadded
    cases hadded
  · rw [h.pc]
    trivial

theorem reads_of_initial (h : s.Initial) : s.pc.Reads s.get := by
  rw [h.pc]
  trivial

/-- **What is retained.** In every run no call takes anything out of the index but what has expired,
is no vector, or has another dimension than what it searches for. An entry is in the index as long
as nobody searches for another dimension, and until then `exists` finds it by its own embedding,
which is similar to itself. -/
theorem retention (cfg : RedisEmbeddingStore E)
    (hsimilar : ∀ e packed, cfg.pack e = .ok packed → cfg.similar e packed = true)
    {s : State E} (hs : s.Initial) (es : List (Event E)) :
    AllSteps (step cfg) (fun s _ t => RemovesOnly cfg s t) s es
      ∧ ∀ key, AllSteps (step cfg) (fun s e _ => SameDimension cfg key s e) s es →
        AllStates (step cfg) (fun s => ∀ packed, s.Has key packed → key ∈ s.index) s es
          ∧ AllSteps (step cfg) (fun s event _ => ∀ e packed, cfg.pack e = .ok packed →
            NotFound s e event → ¬ s.Has key packed) s es := by
  refine ⟨?_, fun key hguard => ?_⟩
  · exact allSteps_of_invariant (I := fun s => s.pc.Reads s.get)
      (fun _ _ _ h hs => reads_of_step h hs) (reads_of_initial hs) es
  · have hstep : ∀ (s : State E) (e : Event E) (t : State E),
        (s.Retains cfg key ∧ s.pc.Reads s.get) → SameDimension cfg key s e →
        step cfg s e = some t → t.Retains cfg key ∧ t.pc.Reads t.get := fun _ _ _ h hguard hs =>
      ⟨retains_of_step hsimilar h.1 h.2 hguard hs, (reads_of_step h.2 hs).1⟩
    have hinit : s.Retains cfg key ∧ s.pc.Reads s.get :=
      ⟨retains_of_initial hs key, reads_of_initial hs⟩
    refine ⟨?_, ?_⟩
    · exact (allStates_of_step hstep hinit hguard).mono (fun s h => h.1.index)
    · refine allSteps_of_step (fun s event t h hguard hs => ⟨hstep s event t h hguard hs, ?_⟩)
        hinit hguard
      intro e packed hpack hnot hhas
      cases event with
      | scanned =>
        -- there is nothing left of the index before the search
        have hretains := h.1.pc
        rw [show s.pc = .searching e none [] [] from hnot] at hretains
        rcases (hretains packed hhas).2 hpack with ⟨page, hpage, _⟩ | hmem
        · exact List.not_mem_nil hpage
        · exact List.not_mem_nil hmem
      | _ => exact hnot

/-- Every item has one of two embeddings of one dimension, `1.0` and `2.0`. -/
def oneOrTwo : RedisEmbeddingStore Bool where
  embed := fun item => item = "one"
  dims := fun _ => 1
  pack := fun e => .ok (if e then [0, 0, 128, 63] else [0, 0, 0, 64])
  length_pack := fun e packed h => by
    obtain rfl := Except.ok.inj h
    cases e <;> rfl
  similar := fun e packed => packed == if e then [0, 0, 128, 63] else [0, 0, 0, 64]
  -- there is no search index in scan mode
  near := fun _ _ => false
  knn := fun _ _ => false
  knn_iff := by simp
  -- a page for the two items, and another one for what else there is
  sscan := fun index => ["one", "two"].filter (fun m => m ∈ index) ::
    RedisEmbeddingStore.unitStore.sscan (index \ {"one", "two"})
  mem_sscan := fun index m => by
    by_cases hone : m = "one" <;> by_cases htwo : m = "two" <;>
      simp [RedisEmbeddingStore.unitStore, hone, htwo]

def emptyStore {E : Type} : State E where
  values := fun _ => none
  index := ∅
  now := 0
  pc := .idle

theorem initial_emptyStore : (emptyStore : State E).Initial where
  pc := rfl
  added := by
    rintro _ _ ⟨⟩

/-- The first embedding is added, and then the other one; a search for the other one passes over the
first. -/
def addTwo : List (Event Bool) :=
  [.called (.add "one" true), .page, .page, .scanned, .executed, .returned,
    .called (.add "two" false), .page, .page, .scanned, .executed, .returned,
    .called (.exists false), .page, .member, .member]

/-- Both entries are retained, and found. -/
theorem retention_addTwo :
    (∃ t, run (step oneOrTwo) emptyStore addTwo = some t
      ∧ t.Has "one" [0, 0, 128, 63] ∧ t.Has "two" [0, 0, 0, 64])
      ∧ AllSteps (step oneOrTwo) (fun s _ t => RemovesOnly oneOrTwo s t) emptyStore addTwo
      ∧ ∀ key ∈ ["one", "two"],
        AllStates (step oneOrTwo) (fun s => ∀ packed, s.Has key packed → key ∈ s.index)
          emptyStore addTwo
        ∧ AllSteps (step oneOrTwo) (fun s event _ => ∀ e packed, oneOrTwo.pack e = .ok packed →
          NotFound s e event → ¬ s.Has key packed) emptyStore addTwo := by
  have hsimilar : ∀ e packed, oneOrTwo.pack e = .ok packed →
      oneOrTwo.similar e packed = true := fun e packed h => by
    obtain rfl := Except.ok.inj h
    exact beq_self_eq_true _
  have hguard : ∀ key ∈ ["one", "two"], AllSteps (step oneOrTwo)
      (fun s e _ => SameDimension oneOrTwo key s e) emptyStore addTwo := by
    decide +kernel
  have hrun : (run (step oneOrTwo) emptyStore addTwo).any (fun t =>
      (t.values "one").any (fun v => v.added && v.packed == [0, 0, 128, 63])
        && t.get "one" == some [0, 0, 128, 63]
        && (t.values "two").any (fun v => v.added && v.packed == [0, 0, 0, 64])
        && t.get "two" == some [0, 0, 0, 64]) = true := by
    decide +kernel
  obtain ⟨t, ht, hall⟩ := (Option.any_eq_true _ _).1 hrun
  simp only [Bool.and_eq_true, beq_iff_eq] at hall
  obtain ⟨⟨⟨hone, hgetOne⟩, htwo⟩, hgetTwo⟩ := hall
  obtain ⟨v, hv, haddedOne⟩ := (Option.any_eq_true _ _).1 hone
  obtain ⟨w, hw, haddedTwo⟩ := (Option.any_eq_true _ _).1 htwo
  rw [Bool.and_eq_true, beq_iff_eq] at haddedOne haddedTwo
  obtain ⟨hremoves, hretains⟩ := retention oneOrTwo hsimilar initial_emptyStore addTwo
  exact ⟨⟨t, ht, ⟨v, hv, haddedOne.1, haddedOne.2, hgetOne⟩,
    ⟨w, hw, haddedTwo.1, haddedTwo.2, hgetTwo⟩⟩, hremoves, fun key hkey =>
    hretains key (hguard key hkey)⟩

/-! ## A search for another dimension -/

/-- Every item has the embedding of ones with as many dimensions as it has characters. -/
def onesStore : RedisEmbeddingStore ℕ where
  embed := String.length
  dims := id
  pack := fun n => .ok (List.replicate n [0, 0, 128, 63]).flatten
  length_pack := fun n packed h => by
    obtain rfl := Except.ok.inj h
    simp [Nat.mul_comm]
  similar := fun n packed => packed == (List.replicate n [0, 0, 128, 63]).flatten
  -- there is no search index in scan mode
  near := fun _ _ => false
  knn := fun _ _ => false
  knn_iff := by simp
  sscan := RedisEmbeddingStore.unitStore.sscan
  mem_sscan := RedisEmbeddingStore.unitStore.mem_sscan

/-- `add` of a vector of one dimension. -/
def addOne : List (Event ℕ) := [.called (.add "a" 1), .page, .scanned, .executed, .returned]

/-- `exists` for two dimensions, and then for the one. -/
def existsTwoOne : List (Event ℕ) :=
  [.called (.exists 2), .page, .member, .scanned, .called (.exists 1), .page]

/-- The value is there, but no longer in the index, and `exists` for it returns `False`. -/
theorem not_retained_other_dimension : ∃ t,
    run (step onesStore) emptyStore (addOne ++ existsTwoOne) = some t
      ∧ t.Has "a" [0, 0, 128, 63] ∧ "a" ∉ t.index ∧ NotFound t 1 .scanned := by
  have hrun : (run (step onesStore) emptyStore (addOne ++ existsTwoOne)).any (fun t =>
      (t.values "a").any (fun v => v.added && v.packed == [0, 0, 128, 63])
        && t.get "a" == some [0, 0, 128, 63] && !decide ("a" ∈ t.index)
        && t.pc == .searching 1 none [] []) = true := by
    decide +kernel
  obtain ⟨t, ht, hall⟩ := (Option.any_eq_true _ _).1 hrun
  simp only [Bool.and_eq_true, Bool.not_eq_true', decide_eq_false_iff_not, beq_iff_eq] at hall
  obtain ⟨⟨⟨hvalue, hget⟩, hindex⟩, hpc⟩ := hall
  obtain ⟨v, hv, hadded⟩ := (Option.any_eq_true _ _).1 hvalue
  rw [Bool.and_eq_true, beq_iff_eq] at hadded
  exact ⟨t, ht, ⟨v, hv, hadded.1, hadded.2, hget⟩, hindex, hpc⟩

end EmbeddingRetention

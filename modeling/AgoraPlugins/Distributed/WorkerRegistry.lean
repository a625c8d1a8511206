import AgoraPlugins.Distributed.LeaseValidation
import AgoraPlugins.FirstOccurrences

/-!
# The registered workers

The workers are listed by a scan of their keys. A scan is answered page by page, and may report a
key on several pages, so the registry keeps the keys that it has seen; those that are new wait until
there are enough of them for a batch, and what is left at the end is a batch of its own. However
the pages fall, each key is fetched once, in the order in which it was seen first.

What is found under a key is left out if it describes no worker. It takes a text that the decoding
fails on for the list to fail, and then it fails as a whole (`listWorkers_listed_iff`).
-/

open FirstOccurrences StoredData

namespace WorkerRegistry

structure Config where
  fetchBatchSize : ℕ
  /-- the coordinator takes no other -/
  pos : 0 < fetchBatchSize

/-- **A complete scan**: the replies to its calls, each with the cursor of the next call, which is
`0` in the end. -/
structure Scan where
  replies : List (ℕ × List String)
  complete : ∃ reply ∈ replies, reply.1 = 0

/-- **What `list_workers` has come to**, and the batches that it has fetched. -/
structure Walk where
  seenKeys : Finset String
  pendingKeys : List String
  fetched : List (List String)
  workers : List WorkerInfo

def Walk.start : Walk := ⟨∅, [], [], []⟩

variable {δ : Type} (py : Python δ) (limits : Json.Limits) (cfg : Config)
  (stored : String → Option String)

/-- `_fetch_worker_batch`, where this is stored under the keys. -/
def fetchWorkerBatch (keys : List String) : Except Exc (List WorkerInfo) := do
  let found ← keys.mapM (fun key => workerInfoFromRaw py limits (stored key))
  pure found.reduceOption

/-- The keys that wait are fetched. -/
def Walk.fetch (w : Walk) : Except Exc Walk := do
  let workers ← fetchWorkerBatch py limits stored w.pendingKeys
  pure
    { w with
      pendingKeys := []
      fetched := w.fetched ++ [w.pendingKeys]
      workers := w.workers ++ workers }

/-- A key that is new waits for the next batch. -/
def Walk.add (w : Walk) (key : String) : Walk :=
  { w with seenKeys := insert key w.seenKeys, pendingKeys := w.pendingKeys ++ [key] }

/-- A key is reported. -/
def Walk.see (w : Walk) (key : String) : Except Exc Walk :=
  if key ∈ w.seenKeys then .ok w
  else if cfg.fetchBatchSize ≤ (w.add key).pendingKeys.length then
    (w.add key).fetch py limits stored
  else .ok (w.add key)

/-- The calls of `scan`, up to the one that returns `0`. -/
def scanReplies : List (ℕ × List String) → Walk → Except Exc Walk
  | [], w => .ok w
  | (cursor, keys) :: replies, w => do
    let w ← keys.foldlM (Walk.see py limits cfg stored) w
    if cursor = 0 then pure w else scanReplies replies w

/-- **`list_workers`**, with the scan that answers it if there is Redis. -/
def listWorkers : Option Scan → Except Exc Walk
  | none => .ok .start
  | some scan => do
    let w ← scanReplies py limits cfg stored scan.replies .start
    if w.pendingKeys = [] then pure w else w.fetch py limits stored

/-! ## The law -/

/-- The keys that a scan reports, until it is complete. -/
def reported : List (ℕ × List String) → List String
  | [] => []
  | (cursor, keys) :: replies => keys ++ if cursor = 0 then [] else reported replies

/-- The worker that a text describes. -/
def decodable (raw : Option String) : Option WorkerInfo :=
  match workerInfoFromRaw py limits raw with
  | .ok worker => worker
  | .error _ => none

/-- **The workers are listed**: each key that is reported is fetched once, in batches that are not
too long, in the order in which it was first reported; and the workers are those that the texts
describe, in this order. -/
structure Listed (scan : Scan) (w : Walk) : Prop where
  once : w.fetched.flatten.Nodup
  all : ∀ key, key ∈ w.fetched.flatten ↔ key ∈ reported scan.replies
  order : w.fetched.flatten = (reported scan.replies).eraseDups
  sizes : ∀ batch ∈ w.fetched, batch ≠ [] ∧ batch.length ≤ cfg.fetchBatchSize
  workers : w.workers = w.fetched.flatten.filterMap (fun key => decodable py limits (stored key))

/-! ## One key after the other -/

variable {py} {limits} {cfg} {stored}

/-- What the texts of a batch describe, if all are read. -/
theorem filterMap_decodable {keys : List String} {found : List (Option WorkerInfo)}
    (h : keys.mapM (fun key => workerInfoFromRaw py limits (stored key)) = .ok found) :
    keys.filterMap (fun key => decodable py limits (stored key)) = found.reduceOption := by
  induction Fallible.mapM_eq_ok_iff.1 h with
  | nil => rfl
  | @cons key worker keys found hkey hrest ih =>
    have hworker : decodable py limits (stored key) = worker := by
      unfold decodable
      rw [hkey]
    rw [List.filterMap_cons, hworker, ih (Fallible.mapM_eq_ok_iff.2 hrest)]
    cases worker <;> rfl

/-- **What has come of the keys that were reported**: those that are new are fetched, batch by
batch, or wait. -/
structure Walked (py : Python δ) (limits : Json.Limits) (cfg : Config)
    (stored : String → Option String) (keys : List String) (w : Walk) : Prop where
  seen : ∀ key, key ∈ w.seenKeys ↔ key ∈ keys
  order : w.fetched.flatten ++ w.pendingKeys = keys.eraseDups
  pending : w.pendingKeys.length ≤ cfg.fetchBatchSize
  sizes : ∀ batch ∈ w.fetched, batch ≠ [] ∧ batch.length ≤ cfg.fetchBatchSize
  skippable : ∀ key ∈ w.fetched.flatten, Skippable limits (stored key)
  workers : w.workers = w.fetched.flatten.filterMap (fun key => decodable py limits (stored key))

theorem walked_start : Walked py limits cfg stored [] .start where
  seen _ := by simp [Walk.start]
  order := rfl
  pending := Nat.zero_le _
  sizes _ hbatch := absurd hbatch List.not_mem_nil
  skippable _ hkey := absurd hkey List.not_mem_nil
  workers := rfl

/-- A key that was seen changes nothing. -/
theorem Walked.skip {keys : List String} {w : Walk} {key : String}
    (h : Walked py limits cfg stored keys w) (hkey : key ∈ keys) :
    Walked py limits cfg stored (keys ++ [key]) w where
  seen k := by
    rw [h.seen, List.mem_append, List.mem_singleton]
    exact ⟨.inl, fun hk => hk.elim id (fun heq => heq ▸ hkey)⟩
  order := by rw [eraseDups_concat_of_mem hkey, h.order]
  pending := h.pending
  sizes := h.sizes
  skippable := h.skippable
  workers := h.workers

/-- A key that is new waits. -/
theorem Walked.add {keys : List String} {w : Walk} {key : String}
    (h : Walked py limits cfg stored keys w) (hlt : w.pendingKeys.length < cfg.fetchBatchSize)
    (hkey : key ∉ keys) : Walked py limits cfg stored (keys ++ [key]) (w.add key) where
  seen k := by
    show k ∈ insert key w.seenKeys ↔ _
    rw [Finset.mem_insert, h.seen, List.mem_append, List.mem_singleton, or_comm]
  order := by
    show w.fetched.flatten ++ (w.pendingKeys ++ [key]) = _
    rw [eraseDups_concat_of_not_mem hkey, ← h.order, List.append_assoc]
  pending := by
    show (w.pendingKeys ++ [key]).length ≤ _
    rw [List.length_append]
    exact hlt
  sizes := h.sizes
  skippable := h.skippable
  workers := h.workers

section Fetch

variable (hint : ∀ s e, py.int s = .error e → isConversionError e = true)

include hint

/-- **A batch is read** if all in it is, and then to what it describes. -/
theorem fetchWorkerBatch_eq_ok_iff {keys : List String} {workers : List WorkerInfo} :
    fetchWorkerBatch py limits stored keys = .ok workers
      ↔ (∀ key ∈ keys, Skippable limits (stored key))
        ∧ keys.filterMap (fun key => decodable py limits (stored key)) = workers := by
  simp only [← workerInfoFromRaw_ok_iff hint]
  unfold fetchWorkerBatch
  rw [Fallible.bind_eq_ok_iff]
  constructor
  · rintro ⟨found, hfound, hworkers⟩
    refine ⟨fun key hkey => ?_, ?_⟩
    · obtain ⟨worker, _, hworker⟩ := Fallible.mem_of_mapM_eq_ok hfound key hkey
      exact ⟨worker, hworker⟩
    · rw [filterMap_decodable hfound]
      exact Except.ok.inj hworkers
  · rintro ⟨hall, rfl⟩
    obtain ⟨found, hfound⟩ := Fallible.exists_mapM_eq_ok hall
    exact ⟨found, hfound, by rw [filterMap_decodable hfound]; rfl⟩

/-- **What waits is fetched**, if it can be read. -/
theorem Walked.fetch {keys : List String} {w t : Walk} (h : Walked py limits cfg stored keys w)
    (hne : w.pendingKeys ≠ []) (ht : w.fetch py limits stored = .ok t) :
    Walked py limits cfg stored keys t ∧ t.pendingKeys = [] := by
  obtain ⟨workers, hworkers, ht⟩ := Fallible.bind_eq_ok_iff.1 ht
  cases ht
  obtain ⟨hskippable, rfl⟩ := (fetchWorkerBatch_eq_ok_iff hint).1 hworkers
  have hflatten : (w.fetched ++ [w.pendingKeys]).flatten = w.fetched.flatten ++ w.pendingKeys := by
    simp
  refine ⟨⟨h.seen, ?_, Nat.zero_le _, ?_, ?_, ?_⟩, rfl⟩
  · show (w.fetched ++ [w.pendingKeys]).flatten ++ [] = _
    rw [hflatten, List.append_nil, h.order]
  · intro batch hbatch
    rcases List.mem_append.1 hbatch with hold | hnew
    · exact h.sizes batch hold
    · rw [List.mem_singleton.1 hnew]
      exact ⟨hne, h.pending⟩
  · show ∀ key ∈ (w.fetched ++ [w.pendingKeys]).flatten, _
    rw [hflatten]
    exact List.forall_mem_append.2 ⟨h.skippable, hskippable⟩
  · show w.workers ++ _ = (w.fetched ++ [w.pendingKeys]).flatten.filterMap _
    rw [hflatten, List.filterMap_append, h.workers]

theorem exists_fetch {w : Walk} (h : ∀ key ∈ w.pendingKeys, Skippable limits (stored key)) :
    ∃ t, w.fetch py limits stored = .ok t :=
  ⟨_, Fallible.bind_eq_ok_iff.2 ⟨_, (fetchWorkerBatch_eq_ok_iff hint).2 ⟨h, rfl⟩, rfl⟩⟩

/-- **A key is reported**: it is skipped, or waits, or fills a batch. -/
theorem Walked.see {keys : List String} {w t : Walk} {key : String}
    (h : Walked py limits cfg stored keys w) (hlt : w.pendingKeys.length < cfg.fetchBatchSize)
    (ht : w.see py limits cfg stored key = .ok t) :
    Walked py limits cfg stored (keys ++ [key]) t ∧ t.pendingKeys.length < cfg.fetchBatchSize := by
  unfold Walk.see at ht
  split_ifs at ht with hseen hfull
  · cases ht
    exact ⟨h.skip ((h.seen key).1 hseen), hlt⟩
  · have hadd := h.add hlt (fun hkey => hseen ((h.seen key).2 hkey))
    have hne : (w.add key).pendingKeys ≠ [] := by simp [Walk.add]
    obtain ⟨hwalked, hnil⟩ := hadd.fetch hint hne ht
    refine ⟨hwalked, ?_⟩
    rw [hnil]
    exact cfg.pos
  · cases ht
    exact ⟨h.add hlt (fun hkey => hseen ((h.seen key).2 hkey)), Nat.lt_of_not_le hfull⟩

/-- A key is dealt with, if what waits can be read. -/
theorem Walked.exists_see {keys : List String} {w : Walk} {key : String}
    (h : Walked py limits cfg stored keys w) (hkey : Skippable limits (stored key))
    (hkeys : ∀ key ∈ keys, Skippable limits (stored key)) :
    ∃ t, w.see py limits cfg stored key = .ok t := by
  unfold Walk.see
  split_ifs
  · exact ⟨w, rfl⟩
  · refine exists_fetch hint (fun k hk => ?_)
    rcases List.mem_append.1 hk with hold | hnew
    · refine hkeys k (List.mem_eraseDups.1 ?_)
      rw [← h.order]
      exact List.mem_append_right _ hold
    · rw [List.mem_singleton.1 hnew]
      exact hkey
  · exact ⟨_, rfl⟩

/-- **The keys of a scan**, one after the other. -/
theorem Walked.foldlM {keys more : List String} {w t : Walk}
    (h : Walked py limits cfg stored keys w) (hlt : w.pendingKeys.length < cfg.fetchBatchSize)
    (ht : more.foldlM (Walk.see py limits cfg stored) w = .ok t) :
    Walked py limits cfg stored (keys ++ more) t
      ∧ t.pendingKeys.length < cfg.fetchBatchSize := by
  induction more generalizing keys w with
  | nil =>
    cases ht
    rw [List.append_nil]
    exact ⟨h, hlt⟩
  | cons key more ih =>
    rw [List.foldlM_cons] at ht
    obtain ⟨u, hu, ht⟩ := Fallible.bind_eq_ok_iff.1 ht
    obtain ⟨hwalked, hlt'⟩ := h.see hint hlt hu
    rw [List.append_cons]
    exact ih hwalked hlt' ht

theorem Walked.exists_foldlM {keys more : List String} {w : Walk}
    (h : Walked py limits cfg stored keys w) (hlt : w.pendingKeys.length < cfg.fetchBatchSize)
    (hall : ∀ key ∈ keys ++ more, Skippable limits (stored key)) :
    ∃ t, more.foldlM (Walk.see py limits cfg stored) w = .ok t := by
  induction more generalizing keys w with
  | nil => exact ⟨w, rfl⟩
  | cons key more ih =>
    have hkeys := List.forall_mem_append.1 hall
    obtain ⟨hkey, _⟩ := List.forall_mem_cons.1 hkeys.2
    obtain ⟨u, hu⟩ := h.exists_see hint hkey hkeys.1
    obtain ⟨hwalked, hlt'⟩ := h.see hint hlt hu
    rw [List.append_cons] at hall
    obtain ⟨t, ht⟩ := ih hwalked hlt' hall
    refine ⟨t, ?_⟩
    rw [List.foldlM_cons]
    exact Fallible.bind_eq_ok_iff.2 ⟨u, hu, ht⟩

end Fetch

/-! ## The pages of a scan -/

/-- **However the pages fall**, their keys come one after the other. -/
theorem scanReplies_eq (replies : List (ℕ × List String)) (w : Walk) :
    scanReplies py limits cfg stored replies w
      = (reported replies).foldlM (Walk.see py limits cfg stored) w := by
  induction replies generalizing w with
  | nil => rfl
  | cons reply replies ih =>
    obtain ⟨cursor, keys⟩ := reply
    unfold scanReplies reported
    rw [List.foldlM_append]
    refine bind_congr (fun u => ?_)
    split
    · rfl
    · exact ih u

/-- What is walked, nothing waiting any more, is listed, and could be read. -/
theorem Walked.listed {scan : Scan} {w : Walk}
    (h : Walked py limits cfg stored (reported scan.replies) w) (hnil : w.pendingKeys = []) :
    Listed py limits cfg stored scan w
      ∧ ∀ key ∈ reported scan.replies, Skippable limits (stored key) := by
  have horder : w.fetched.flatten = (reported scan.replies).eraseDups := by
    rw [← h.order, hnil, List.append_nil]
  have hall : ∀ key, key ∈ w.fetched.flatten ↔ key ∈ reported scan.replies := by
    intro key
    rw [horder, List.mem_eraseDups]
  refine ⟨⟨?_, hall, horder, h.sizes, h.workers⟩, fun key hkey => ?_⟩
  · rw [horder]
    exact nodup_eraseDups _
  · exact h.skippable key ((hall key).2 hkey)

section List

variable (hint : ∀ s e, py.int s = .error e → isConversionError e = true)

include hint

/-- **What is returned is listed**, and all that was found could be read. -/
theorem listed_of_listWorkers {scan : Scan} {w : Walk}
    (h : listWorkers py limits cfg stored (some scan) = .ok w) :
    Listed py limits cfg stored scan w
      ∧ ∀ key ∈ reported scan.replies, Skippable limits (stored key) := by
  obtain ⟨u, hu, hw⟩ := Fallible.bind_eq_ok_iff.1 h
  rw [scanReplies_eq] at hu
  obtain ⟨hwalked, _⟩ := walked_start.foldlM hint cfg.pos hu
  rw [List.nil_append] at hwalked
  split at hw
  next hnil =>
    cases hw
    exact hwalked.listed hnil
  next hne =>
    obtain ⟨hwalked, hnil⟩ := hwalked.fetch hint hne hw
    exact hwalked.listed hnil

/-- **The list is returned** just if all that is found can be read. -/
theorem listWorkers_ok_iff (scan : Scan) :
    (∃ w, listWorkers py limits cfg stored (some scan) = .ok w)
      ↔ ∀ key ∈ reported scan.replies, Skippable limits (stored key) := by
  constructor
  · rintro ⟨w, hw⟩
    exact (listed_of_listWorkers hint hw).2
  · intro hall
    obtain ⟨u, hu⟩ := walked_start.exists_foldlM hint cfg.pos hall
    obtain ⟨hwalked, _⟩ := walked_start.foldlM hint cfg.pos hu
    have hpending : ∀ key ∈ u.pendingKeys, Skippable limits (stored key) := by
      intro key hkey
      refine hall key (List.mem_eraseDups.1 ?_)
      have hmem := List.mem_append_right u.fetched.flatten hkey
      rwa [hwalked.order] at hmem
    obtain ⟨t, ht⟩ := exists_fetch hint hpending
    rw [← scanReplies_eq] at hu
    unfold listWorkers
    by_cases hnil : u.pendingKeys = []
    · exact ⟨u, Fallible.bind_eq_ok_iff.2 ⟨u, hu, if_pos hnil⟩⟩
    · exact ⟨t, Fallible.bind_eq_ok_iff.2 ⟨u, hu, (if_neg hnil).trans ht⟩⟩

/-- **The workers are listed**, each key once and in order, just if what is found under each of
them can be read or skipped. -/
theorem listWorkers_listed_iff (cfg : Config) (stored : String → Option String) (scan : Scan) :
    (∃ w, listWorkers py limits cfg stored (some scan) = .ok w
        ∧ Listed py limits cfg stored scan w)
      ↔ ∀ key ∈ reported scan.replies, Skippable limits (stored key) := by
  rw [← @listWorkers_ok_iff _ py limits cfg stored hint scan]
  constructor
  · rintro ⟨w, hw, _⟩
    exact ⟨w, hw⟩
  · rintro ⟨w, hw⟩
    exact ⟨w, hw, (listed_of_listWorkers hint hw).1⟩

end List

/-- What `int` raises for the text of a number that it cannot read. -/
theorem isConversionError_ofTexts (s : String) (e : Exc) (h : Python.ofTexts.int s = .error e) :
    isConversionError e = true := by
  unfold Python.ofTexts at h
  dsimp only at h
  split at h
  · cases h
  · cases h
    rfl

/-- Two workers are stored, and something else under a third key. -/
def twoWorkers (key : String) : Option String :=
  if key = "a" then some "\x7b\"worker_id\": \"w1\", \"pid\": 17\x7d"
  else if key = "b" then some "\x7b\"worker_id\": \"w2\", \"pid\": \"18\"\x7d"
  else some "[]"

/-- A scan that reports two keys on two pages. -/
def twoPages : Scan := ⟨[(7, ["a", "b", "a"]), (0, ["b", "c"])], (0, ["b", "c"]), by simp⟩

/-- A key on two pages is fetched once, and both workers are listed. -/
theorem listWorkers_listed_repeated :
    ∃ w, listWorkers Python.ofTexts ⟨some 4300, 900⟩ ⟨2, Nat.two_pos⟩ twoWorkers (some twoPages)
          = .ok w
        ∧ Listed Python.ofTexts ⟨some 4300, 900⟩ ⟨2, Nat.two_pos⟩ twoWorkers twoPages w
        ∧ w.workers.map (fun worker => (worker.workerId, worker.pid))
          = [("w1", 17), ("w2", 18)] := by
  have hread : ∀ key ∈ reported twoPages.replies, (workerInfoFromRaw Python.ofTexts
      ⟨some 4300, 900⟩ (twoWorkers key)).toOption.isSome = true := by
    decide +kernel
  have hskippable : ∀ key ∈ reported twoPages.replies,
      Skippable ⟨some 4300, 900⟩ (twoWorkers key) := by
    intro key hkey
    refine (workerInfoFromRaw_ok_iff isConversionError_ofTexts _).1 ?_
    have hsome := hread key hkey
    cases hraw : workerInfoFromRaw Python.ofTexts ⟨some 4300, 900⟩ (twoWorkers key) with
    | ok worker => exact ⟨worker, rfl⟩
    | error e =>
      rw [hraw] at hsome
      cases hsome
  obtain ⟨w, hw, hlisted⟩ := (listWorkers_listed_iff isConversionError_ofTexts ⟨2, Nat.two_pos⟩
    twoWorkers twoPages).2 hskippable
  refine ⟨w, hw, hlisted, ?_⟩
  rw [hlisted.workers, hlisted.order, show (reported twoPages.replies).eraseDups
    = ["a", "b", "c"] from by decide]
  decide +kernel

/-- **A worker with an infinite process id** lets the list fail. -/
theorem not_listed_infinitePid :
    ¬ ∃ w, listWorkers Python.ofTexts ⟨some 4300, 900⟩ ⟨2, by decide⟩
          (fun _ => some "\x7b\"pid\": Infinity\x7d")
          (some ⟨[(0, ["a"])], by decide⟩) = .ok w
        ∧ Listed Python.ofTexts ⟨some 4300, 900⟩ ⟨2, by decide⟩
          (fun _ => some "\x7b\"pid\": Infinity\x7d")
          ⟨[(0, ["a"])], by decide⟩ w := by
  rintro ⟨w, hw, _⟩
  have hraises : workerInfoFromRaw Python.ofTexts ⟨some 4300, 900⟩
      (some "\x7b\"pid\": Infinity\x7d")
      = .error (.exception "OverflowError" "cannot convert float infinity to integer") := by
    decide +kernel
  simp [listWorkers, scanReplies, Walk.see, Walk.add, Walk.start, Walk.fetch, fetchWorkerBatch,
    hraises, bind, Except.bind, pure, Except.pure] at hw

end WorkerRegistry

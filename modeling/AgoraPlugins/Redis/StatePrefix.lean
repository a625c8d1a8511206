import Mathlib.Data.Finset.Card
import Mathlib.Data.Finset.SDiff
import AgoraPlugins.Glob

/-!
# Keys by their prefix

`count_prefix` and `delete_prefix` find the keys that start with a text by `SCAN`, which
takes a pattern. They hand it the text with a star after it, so a text with a special byte
in it finds other keys. And `SCAN` may report a key more than once, which counts more than
once.

A text is taken as the bytes it has in UTF-8, as Redis sees it.
-/

namespace StateBackend

abbrev Key := List UInt8

/-- **A full `SCAN`** of what is stored: it reports every key, some of them perhaps more
than once. -/
structure Scan (stored : Finset Key) where
  reported : List Key
  mem_reported : ∀ k, k ∈ reported ↔ k ∈ stored

/-- A store with one key, and a scan of it. -/
def Scan.single (k : Key) : Scan {k} := ⟨[k], fun l => by simp⟩

/-- **`RedisBackend`**, as far as keys go. -/
structure RedisBackend where
  keyPrefix : Key
  redisCluster : Bool

namespace RedisBackend

variable (backend : RedisBackend) {stored : Finset Key} (scan : Scan stored) (start : Key)

/-- `_key`. -/
def key (name : Key) : Key := backend.keyPrefix ++ name

/-- `_scan_prefixed_keys`. -/
def scanPrefixedKeys : List Key :=
  scan.reported.filter (Glob.isMatch (backend.key (start ++ [Glob.star])))

/-- `count_prefix`. -/
def countPrefix : ℕ := (backend.scanPrefixedKeys scan start).length

/-- `delete_prefix`: what it returns, and what is left. -/
def deletePrefix : ℕ × Finset Key :=
  let keys := backend.scanPrefixedKeys scan start
  if keys = [] then (0, stored)
  else if backend.redisCluster then (keys.length, keys.foldl Finset.erase stored)
  else (keys.length, stored \ keys.toFinset)

/-- The keys that are meant. -/
def prefixed (stored : Finset Key) : Finset Key :=
  stored.filter (fun k => backend.key start <+: k)

/-- **The prefix operations do what they say**: just the keys that start with the prefix are
deleted, and each of them is counted once. -/
structure Exact : Prop where
  count : backend.countPrefix scan start = (backend.prefixed start stored).card
  deleted : (backend.deletePrefix scan start).1 = (backend.prefixed start stored).card
  left : (backend.deletePrefix scan start).2 = stored \ backend.prefixed start stored

end RedisBackend

/-- The scan reports no key with this prefix twice. -/
def Scan.Once {stored : Finset Key} (scan : Scan stored) (p : Key) : Prop :=
  (scan.reported.filter (fun k => p <+: k)).Nodup

/-! ## What is found -/

namespace RedisBackend

variable {backend : RedisBackend} {stored : Finset Key} {scan : Scan stored} {start : Key}

theorem mem_scanPrefixedKeys (k : Key) : k ∈ backend.scanPrefixedKeys scan start
    ↔ k ∈ stored ∧ Glob.isMatch (backend.key start ++ [Glob.star]) k = true := by
  unfold scanPrefixedKeys
  rw [List.mem_filter, scan.mem_reported, key, ← List.append_assoc]
  rfl

theorem foldl_erase (keys : List Key) (s : Finset Key) :
    keys.foldl Finset.erase s = s \ keys.toFinset := by
  induction keys generalizing s with
  | nil => simp
  | cons k keys ih =>
    rw [List.foldl_cons, ih, List.toFinset_cons, Finset.sdiff_insert, Finset.erase_sdiff_comm]

/-- **A cluster or not**, what was found is deleted. -/
theorem deletePrefix_eq : backend.deletePrefix scan start
    = ((backend.scanPrefixedKeys scan start).length,
      stored \ (backend.scanPrefixedKeys scan start).toFinset) := by
  unfold deletePrefix
  dsimp only
  split
  next hnil =>
    rw [hnil]
    simp
  next =>
    split
    next => rw [foldl_erase]
    next => rfl

/-- **What is counted** is the number of keys if none is found twice. -/
theorem length_eq_card_iff {keys : List Key} : keys.length = keys.toFinset.card ↔ keys.Nodup := by
  rw [List.card_toFinset, ← List.dedup_eq_self]
  constructor
  · intro h
    exact (List.dedup_sublist keys).eq_of_length h.symm
  · intro h
    rw [h]

/-- With a literal prefix, what is found is what starts with it. -/
theorem scanPrefixedKeys_eq (hliteral : Glob.Literal (backend.key start)) :
    backend.scanPrefixedKeys scan start
      = scan.reported.filter (fun k => backend.key start <+: k) := by
  unfold scanPrefixedKeys
  refine List.filter_congr (fun k _ => ?_)
  rw [Bool.eq_iff_iff, decide_eq_true_iff, ← (Glob.matches_iff_isPrefix _).2 hliteral k, key, key,
    List.append_assoc]

theorem toFinset_scanPrefixedKeys (hliteral : Glob.Literal (backend.key start)) :
    (backend.scanPrefixedKeys scan start).toFinset = backend.prefixed start stored := by
  ext k
  rw [List.mem_toFinset, mem_scanPrefixedKeys, (Glob.matches_iff_isPrefix _).2 hliteral k]
  exact Finset.mem_filter.symm

/-- **For a literal prefix** the operations are exact just if the scan repeats no key. -/
theorem exact_iff_once (hliteral : Glob.Literal (backend.key start)) :
    backend.Exact scan start ↔ scan.Once (backend.key start) := by
  have hfound := @toFinset_scanPrefixedKeys backend stored scan start hliteral
  have hlength : (backend.scanPrefixedKeys scan start).length
      = (backend.prefixed start stored).card ↔ scan.Once (backend.key start) := by
    rw [← hfound, length_eq_card_iff, scanPrefixedKeys_eq hliteral]
    rfl
  constructor
  · intro h
    exact hlength.1 h.count
  · intro h
    refine ⟨hlength.2 h, ?_, ?_⟩
    · rw [deletePrefix_eq]
      exact hlength.2 h
    · rw [deletePrefix_eq, hfound]

/-- **When the operations are exact for every store**: if the prefix is literal. -/
theorem literal_of_exact (h : ∀ (stored : Finset Key) (scan : Scan stored),
    scan.Once (backend.key start) → backend.Exact scan start) :
    Glob.Literal (backend.key start) := by
  refine (Glob.matches_iff_isPrefix _).1 (fun k => ?_)
  have hexact := h {k} (Scan.single k) ((List.nodup_singleton k).filter _)
  have hmem : k ∈ backend.scanPrefixedKeys (Scan.single k) start
      ↔ Glob.isMatch (backend.key start ++ [Glob.star]) k = true := by
    rw [mem_scanPrefixedKeys]
    simp
  have hleft := hexact.left
  rw [deletePrefix_eq] at hleft
  have hk := congrArg (fun s => k ∈ s) hleft
  simp only [prefixed, Finset.mem_sdiff, Finset.mem_singleton, List.mem_toFinset, hmem,
    Finset.mem_filter, true_and, not_iff_not, eq_iff_iff] at hk
  exact hk

/-- **Exactly the literal prefixes**: the operations are exact for every store and every
scan that repeats no key just if no byte of the prefix is special. And then they are not
for a scan that does repeat one. -/
theorem exact_iff_literal (backend : RedisBackend) (start : Key) :
    ((∀ (stored : Finset Key) (scan : Scan stored),
        scan.Once (backend.key start) → backend.Exact scan start)
      ↔ Glob.Literal (backend.key start))
    ∧ (Glob.Literal (backend.key start) → ∀ (stored : Finset Key) (scan : Scan stored),
        backend.Exact scan start ↔ scan.Once (backend.key start)) :=
  ⟨⟨literal_of_exact, fun hliteral _ _ => (exact_iff_once hliteral).2⟩,
    fun hliteral _ _ => exact_iff_once hliteral⟩

end RedisBackend

/-- The bytes of a text in ASCII. -/
def ascii (text : String) : Key := text.toList.map (fun c => UInt8.ofNat c.toNat)

/-- **A prefix with brackets** finds none of its keys. -/
theorem not_exact_brackets :
    ¬ RedisBackend.Exact ⟨ascii "agora:state:", false⟩
      (Scan.single (ascii "agora:state:user[1]:name")) (ascii "user[1]:") := by
  intro h
  have hcount := h.count
  revert hcount
  decide +kernel

end StateBackend

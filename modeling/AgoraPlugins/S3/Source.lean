import AgoraPlugins.Machine
import Mathlib.Data.String.Basic

/-!
# The S3 source, over crashes

The source goes through the objects of a listing, page after page and in the order of their
keys, and emits the records of each. Its checkpoint is the key of the last object that it has
gone through to the end. A run that crashes does so anywhere: between objects, while one is
downloaded, between two records. The next one skips the keys up to the checkpoint that was
last saved.

A checkpoint is saved when it is asked for, which need not be when it changes, and one is there
only after the first object of a run. Still nothing is left out: whatever was saved last, the
objects up to it have been emitted, by this run or by earlier ones, and what a later run emits
lies above it. And a run that does not crash comes to its end, after as many steps as there are
records, objects and pages left (`covered_chain`).
-/

open Machine

/-- **What a source reads**: the pages of the listing, with the keys of the objects in it, and
the records that the file source emits for each object. -/
structure S3Dataset (ρ : Type) where
  pages : List (List String)
  records : String → List ρ

/-- A record of an object, by its place in it. -/
structure EmittedRecord (ρ : Type) where
  key : String
  record : ρ
  index : ℕ

/-- **Where the stream is.** -/
inductive StreamPc (ρ : Type) where
  /-- before the next object of the page, or the next page -/
  | listing (pages : List (List String)) (keys : List String)
  /-- within an object -/
  | emitting (pages : List (List String)) (keys : List String) (key : String)
      (records : List (ρ × ℕ))
  | ended

/-- The keys that the stream has not passed. -/
def StreamPc.remaining {ρ : Type} : StreamPc ρ → List String
  | .listing pages keys => keys ++ pages.flatten
  | .emitting pages keys key _ => key :: (keys ++ pages.flatten)
  | .ended => []

/-- **A source and its past.** -/
structure S3SourceState (ρ : Type) where
  resumeAfterKey : Option String := none
  lastCompletedKey : Option String := none
  pc : StreamPc ρ
  /-- the checkpoint that was returned last, by this run or by an earlier one -/
  saved : Option String := none
  /-- all the checkpoints that were returned, and those that were returned by earlier runs -/
  returned : List String := []
  returnedEarlier : List String := []
  emitted : List (EmittedRecord ρ) := []

/-- What can happen. A crash is that the stream does not go on, and another run begins. -/
inductive S3SourceEvent where
  | advance
  | checkpoint
  | resume
  deriving DecidableEq

namespace S3Source

variable {ρ : Type} (data : S3Dataset ρ)

/-- A source that has not been used. -/
def init : S3SourceState ρ := { pc := .listing data.pages [] }

/-- `object_key <= self._resume_after_key`. -/
def skips (resumeAfterKey : Option String) (key : String) : Prop :=
  ∃ k ∈ resumeAfterKey, key ≤ k

instance (resumeAfterKey : Option String) (key : String) :
    Decidable (skips resumeAfterKey key) :=
  inferInstanceAs (Decidable (∃ k ∈ resumeAfterKey, key ≤ k))

/-- **`stream`**, up to its next await point or the next record. -/
def advance (s : S3SourceState ρ) : Option (S3SourceState ρ) :=
  match s.pc with
  | .listing [] [] => some { s with pc := .ended }
  | .listing (page :: pages) [] => some { s with pc := .listing pages page }
  | .listing pages (key :: keys) =>
    if skips s.resumeAfterKey key then some { s with pc := .listing pages keys }
    else some { s with pc := .emitting pages keys key (data.records key).zipIdx }
  | .emitting pages keys key [] =>
    some { s with lastCompletedKey := some key, pc := .listing pages keys }
  | .emitting pages keys key ((record, index) :: records) =>
    some { s with
      emitted := s.emitted ++ [⟨key, record, index⟩], pc := .emitting pages keys key records }
  | .ended => none

/-- A checkpoint is returned. -/
def save (s : S3SourceState ρ) (key : String) : S3SourceState ρ :=
  { s with saved := some key, returned := s.returned ++ [key] }

/-- **`current_checkpoint`**, which is saved if it is one. -/
def checkpoint (s : S3SourceState ρ) : S3SourceState ρ :=
  match s.lastCompletedKey with
  | none => s
  | some key => save s key

/-- **`prepare_resume`**, with the checkpoint that was saved last. -/
def resume (s : S3SourceState ρ) : S3SourceState ρ :=
  { s with
    resumeAfterKey := s.saved, lastCompletedKey := none, pc := .listing data.pages []
    returnedEarlier := s.returned }

/-- **One event.** -/
def step (s : S3SourceState ρ) : S3SourceEvent → Option (S3SourceState ρ)
  | .advance => advance data s
  | .checkpoint => some (checkpoint s)
  | .resume => some (resume data s)

/-! ## What has been emitted -/

/-- All the records of an object have been emitted. -/
def Covered (s : S3SourceState ρ) (key : String) : Prop :=
  ∀ p ∈ (data.records key).zipIdx, ⟨key, p.1, p.2⟩ ∈ s.emitted

/-- So have those of all objects up to a key. -/
def CoveredUpTo (s : S3SourceState ρ) (k : String) : Prop :=
  ∀ key ∈ data.pages.flatten, key ≤ k → Covered data s key

/-- **What holds between the checkpoints, the stream and the records emitted.** -/
structure Chain (s : S3SourceState ρ) : Prop where
  saved : ∀ k ∈ s.saved, CoveredUpTo data s k
  returned_le : ∀ k ∈ s.returned, ∃ k' ∈ s.saved, k ≤ k'
  resumed : ∀ k ∈ s.resumeAfterKey, CoveredUpTo data s k
  returnedEarlier_le : ∀ k ∈ s.returnedEarlier, ∃ k' ∈ s.resumeAfterKey, k ≤ k'
  returned_cases : ∀ k ∈ s.returned,
    (∃ k' ∈ s.resumeAfterKey, k ≤ k') ∨ ∃ k' ∈ s.lastCompletedKey, k ≤ k'
  completed_gt : ∀ c ∈ s.lastCompletedKey, ∀ k ∈ s.resumeAfterKey, k < c
  /-- the keys that the stream has passed are covered -/
  passed : ∃ before, data.pages.flatten = before ++ s.pc.remaining
    ∧ (∀ key ∈ before, Covered data s key) ∧ ∀ c ∈ s.lastCompletedKey, c ∈ before
  emitting : ∀ pages keys key records, s.pc = .emitting pages keys key records →
    (∀ k ∈ s.resumeAfterKey, k < key)
      ∧ ∃ before, (data.records key).zipIdx = before ++ records
        ∧ ∀ p ∈ before, ⟨key, p.1, p.2⟩ ∈ s.emitted

variable {data} {s t : S3SourceState ρ}

theorem Covered.mono {key : String} (h : Covered data s key) (hst : s.emitted ⊆ t.emitted) :
    Covered data t key :=
  fun p hp => hst (h p hp)

theorem CoveredUpTo.mono {k : String} (h : CoveredUpTo data s k) (hst : s.emitted ⊆ t.emitted) :
    CoveredUpTo data t k :=
  fun key hkey hle => (h key hkey hle).mono hst

/-- The keys up to one that has been passed have been passed. -/
theorem coveredUpTo_of_passed (hkeys : data.pages.flatten.Pairwise (· < ·))
    {before after : List String} (hsplit : data.pages.flatten = before ++ after)
    (hbefore : ∀ key ∈ before, Covered data s key) {c : String} (hc : c ∈ before) :
    CoveredUpTo data s c := by
  intro key hkey hle
  rw [hsplit] at hkey hkeys
  rcases List.mem_append.1 hkey with hkey | hkey
  · exact hbefore key hkey
  · exact absurd ((List.pairwise_append.1 hkeys).2.2 c hc key hkey) (not_lt.2 hle)

/-! ## One event -/

theorem chain_init : Chain data (init data) where
  saved := nofun
  returned_le := nofun
  resumed := nofun
  returnedEarlier_le := nofun
  returned_cases := nofun
  completed_gt := nofun
  passed := ⟨[], rfl, nofun, nofun⟩
  emitting := nofun

theorem chain_resume (h : Chain data s) : Chain data (resume data s) where
  saved := h.saved
  returned_le := h.returned_le
  resumed := h.saved
  returnedEarlier_le := h.returned_le
  returned_cases k hk := .inl (h.returned_le k hk)
  completed_gt := nofun
  passed := ⟨[], rfl, nofun, nofun⟩
  emitting := nofun

/-- **A checkpoint that is returned** lies above those that were returned before, and what it
stands for has been emitted. -/
theorem chain_save (hkeys : data.pages.flatten.Pairwise (· < ·)) (h : Chain data s) {c : String}
    (hlast : c ∈ s.lastCompletedKey) : Chain data (save s c) where
  saved := by
    obtain ⟨before, hsplit, hbefore, hpassed⟩ := h.passed
    intro k hk
    cases hk
    exact coveredUpTo_of_passed hkeys hsplit hbefore (hpassed c hlast)
  returned_le := by
    intro k hk
    refine ⟨c, rfl, ?_⟩
    rcases List.mem_append.1 hk with hk | hk
    · rcases h.returned_cases k hk with ⟨k', hk', hle⟩ | ⟨k', hk', hle⟩
      · exact hle.trans (h.completed_gt c hlast k' hk').le
      · rwa [Option.mem_unique hlast hk']
    · exact (List.mem_singleton.1 hk).le
  resumed := h.resumed
  returnedEarlier_le := h.returnedEarlier_le
  returned_cases := by
    intro k hk
    rcases List.mem_append.1 hk with hk | hk
    · exact h.returned_cases k hk
    · exact .inr ⟨c, hlast, (List.mem_singleton.1 hk).le⟩
  completed_gt := h.completed_gt
  passed := h.passed
  emitting := h.emitting

/-- The stream goes on between two objects: what it passes is covered. -/
theorem chain_listing (h : Chain data s) (before : List String) {pages : List (List String)}
    {keys : List String} (hsplit : data.pages.flatten = before ++ (keys ++ pages.flatten))
    (hbefore : ∀ key ∈ before, Covered data s key) (hpassed : ∀ c ∈ s.lastCompletedKey, c ∈ before) :
    Chain data { s with pc := .listing pages keys } :=
  { h with passed := ⟨before, hsplit, hbefore, hpassed⟩, emitting := nofun }

/-- **The stream goes on.** -/
theorem chain_advance (hkeys : data.pages.flatten.Pairwise (· < ·)) (h : Chain data s)
    (hst : advance data s = some t) : Chain data t := by
  obtain ⟨before, hsplit, hbefore, hpassed⟩ := h.passed
  unfold advance at hst
  split at hst
  · -- the listing is at its end
    rename_i hpc
    cases hst
    rw [hpc] at hsplit
    exact { h with passed := ⟨before, hsplit, hbefore, hpassed⟩, emitting := nofun }
  · rename_i page pages hpc
    cases hst
    rw [hpc] at hsplit
    exact chain_listing h before hsplit hbefore hpassed
  · rename_i pages key keys hpc
    rw [hpc] at hsplit
    change _ = before ++ (key :: (keys ++ pages.flatten)) at hsplit
    have hmem : key ∈ data.pages.flatten := by
      rw [hsplit]
      exact List.mem_append_right _ List.mem_cons_self
    split at hst
    · -- an object up to the checkpoint has been emitted before
      rename_i hskips
      cases hst
      obtain ⟨k, hk, hle⟩ := hskips
      refine chain_listing h (before ++ [key]) ?_ ?_ ?_
      · rw [hsplit, List.append_assoc]
        rfl
      · intro key' hkey'
        rcases List.mem_append.1 hkey' with hkey' | hkey'
        · exact hbefore key' hkey'
        · rw [List.mem_singleton.1 hkey']
          exact h.resumed k hk key hmem hle
      · exact fun c hc => List.mem_append_left _ (hpassed c hc)
    · rename_i hskips
      cases hst
      refine { h with passed := ⟨before, hsplit, hbefore, hpassed⟩, emitting := ?_ }
      intro pages' keys' key' records' hpc'
      cases hpc'
      exact ⟨fun k hk => not_le.1 (fun hle => hskips ⟨k, hk, hle⟩), [], rfl, nofun⟩
  · -- an object has been gone through to the end
    rename_i pages keys key hpc
    obtain ⟨hgt, done, hdone, hemitted⟩ := h.emitting _ _ _ _ hpc
    rw [List.append_nil] at hdone
    cases hst
    rw [hpc] at hsplit
    change _ = before ++ (key :: (keys ++ pages.flatten)) at hsplit
    have hlt : ∀ c ∈ before, c < key := by
      intro c hc
      rw [hsplit] at hkeys
      exact (List.pairwise_append.1 hkeys).2.2 c hc key List.mem_cons_self
    refine { h with
      returned_cases := ?_, completed_gt := ?_, passed := ⟨before ++ [key], ?_, ?_, ?_⟩
      emitting := nofun }
    · intro k hk
      rcases h.returned_cases k hk with ⟨k', hk', hle⟩ | ⟨k', hk', hle⟩
      · exact .inl ⟨k', hk', hle⟩
      · exact .inr ⟨key, rfl, hle.trans (hlt k' (hpassed k' hk')).le⟩
    · intro c hc
      cases hc
      exact hgt
    · show _ = before ++ [key] ++ (keys ++ pages.flatten)
      rw [hsplit, List.append_assoc]
      rfl
    · intro key' hkey'
      rcases List.mem_append.1 hkey' with hkey' | hkey'
      · exact hbefore key' hkey'
      · rw [List.mem_singleton.1 hkey']
        intro p hp
        rw [hdone] at hp
        exact hemitted p hp
    · intro c hc
      cases hc
      exact List.mem_append_right _ List.mem_cons_self
  · rename_i pages keys key record index records hpc
    obtain ⟨hgt, done, hdone, hemitted⟩ := h.emitting _ _ _ _ hpc
    cases hst
    have hsub : s.emitted ⊆ s.emitted ++ [⟨key, record, index⟩] := List.subset_append_left _ _
    rw [hpc] at hsplit
    refine { h with
      saved := fun k hk => (h.saved k hk).mono hsub
      resumed := fun k hk => (h.resumed k hk).mono hsub
      passed := ⟨before, hsplit, fun key' hkey' => (hbefore key' hkey').mono hsub, hpassed⟩
      emitting := ?_ }
    intro pages' keys' key' records' hpc'
    cases hpc'
    refine ⟨hgt, done ++ [(record, index)], ?_, ?_⟩
    · rw [hdone, List.append_assoc]
      rfl
    · intro p hp
      rcases List.mem_append.1 hp with hp | hp
      · exact hsub (hemitted p hp)
      · rw [List.mem_singleton.1 hp]
        exact List.mem_append_right _ List.mem_cons_self
  · cases hst

theorem chain_step (hkeys : data.pages.flatten.Pairwise (· < ·)) {e : S3SourceEvent}
    (h : Chain data s) (hst : step data s e = some t) : Chain data t := by
  cases e with
  | advance => exact chain_advance hkeys h hst
  | checkpoint =>
    cases hst
    unfold checkpoint
    split
    · exact h
    · rename_i c hlast
      exact chain_save hkeys h hlast
  | resume =>
    cases hst
    exact chain_resume h

/-- Going on emits nothing, or one record of the object where the stream is. -/
theorem emitted_of_advance (hst : advance data s = some t) :
    t.emitted = s.emitted
      ∨ ∃ pages keys key records r, s.pc = .emitting pages keys key records
        ∧ t.emitted = s.emitted ++ [r] ∧ r.key = key := by
  unfold advance at hst
  split at hst
  case h_3 =>
    split at hst <;> cases hst <;> exact .inl rfl
  case h_5 pages keys key record index records hpc =>
    cases hst
    exact .inr ⟨pages, keys, key, _, ⟨key, record, index⟩, hpc, rfl, rfl⟩
  all_goals
    cases hst
    try exact .inl rfl

/-- What is emitted lies above the checkpoints that earlier runs have returned. -/
theorem gt_of_emitted {e : S3SourceEvent} (h : Chain data s) (hst : step data s e = some t) :
    ∀ r ∈ t.emitted.drop s.emitted.length, ∀ k ∈ s.returnedEarlier, k < r.key := by
  have hnothing : t.emitted = s.emitted →
      ∀ r ∈ t.emitted.drop s.emitted.length, ∀ k ∈ s.returnedEarlier, k < r.key := by
    intro hsame r hr
    rw [hsame, List.drop_length] at hr
    cases hr
  cases e with
  | advance =>
    rcases emitted_of_advance hst with hsame | ⟨pages, keys, key, records, r, hpc, hr, rfl⟩
    · exact hnothing hsame
    · rw [hr, List.drop_left]
      intro r' hr' k hk
      rw [List.mem_singleton.1 hr']
      obtain ⟨k', hk', hle⟩ := h.returnedEarlier_le k hk
      exact hle.trans_lt ((h.emitting _ _ _ _ hpc).1 k' hk')
  | checkpoint =>
    cases hst
    refine hnothing ?_
    unfold checkpoint
    split <;> rfl
  | resume =>
    cases hst
    exact hnothing rfl

/-! ## A run that does not crash -/

variable (data) in
/-- How often the stream goes on for an object. -/
def cost (resumeAfterKey : Option String) (key : String) : ℕ :=
  if skips resumeAfterKey key then 1 else (data.records key).length + 2

variable (data) in
/-- How often it goes on until the listing is at its end. -/
def costAll (resumeAfterKey : Option String) (pages : List (List String)) (keys : List String) :
    ℕ :=
  ((keys ++ pages.flatten).map (cost data resumeAfterKey)).foldr (· + ·) 0 + pages.length + 1

variable (data) in
/-- **How often the stream goes on** from here, if nothing crashes. -/
def left (s : S3SourceState ρ) : ℕ :=
  match s.pc with
  | .listing pages keys => costAll data s.resumeAfterKey pages keys
  | .emitting pages keys _ records => records.length + 1 + costAll data s.resumeAfterKey pages keys
  | .ended => 0

/-- **The stream goes on until it ends**, with one time less to go. -/
theorem exists_advance (h : s.pc ≠ .ended) :
    ∃ t, advance data s = some t ∧ left data t + 1 = left data s := by
  unfold advance
  split
  case h_1 hpc =>
    refine ⟨_, rfl, ?_⟩
    simp [left, hpc, costAll]
  case h_2 page pages hpc =>
    refine ⟨_, rfl, ?_⟩
    simp only [left, hpc, costAll, List.nil_append, List.flatten_cons, List.length_cons]
    omega
  case h_3 pages key keys hpc =>
    by_cases hskips : skips s.resumeAfterKey key
    · rw [if_pos hskips]
      refine ⟨_, rfl, ?_⟩
      simp only [left, hpc, costAll, List.cons_append, List.map_cons, List.foldr_cons, cost,
        if_pos hskips]
      omega
    · rw [if_neg hskips]
      refine ⟨_, rfl, ?_⟩
      simp only [left, hpc, costAll, List.cons_append, List.map_cons, List.foldr_cons,
        List.length_zipIdx]
      rw [cost, if_neg hskips]
      omega
  case h_4 pages keys key hpc =>
    refine ⟨_, rfl, ?_⟩
    simp only [left, hpc, List.length_nil]
    omega
  case h_5 pages keys key record index records hpc =>
    refine ⟨_, rfl, ?_⟩
    simp only [left, hpc, List.length_cons]
    omega
  case h_6 hpc => exact absurd hpc h

theorem left_checkpoint : left data (checkpoint s) = left data s := by
  unfold checkpoint
  split <;> rfl

/-- A stream with nothing to go has ended. -/
theorem pc_of_left (h : left data s = 0) : s.pc = .ended := by
  by_contra hpc
  obtain ⟨t, _, hleft⟩ : ∃ t, advance data s = some t ∧ left data t + 1 = left data s :=
    exists_advance hpc
  omega

/-- **A run that goes on often enough ends**, whenever checkpoints are asked for. By induction on
the run. -/
theorem exists_run_ended {es : List S3SourceEvent} (hes : .resume ∉ es)
    (hcount : es.count .advance = left data s) :
    ∃ u, run (step data) s es = some u ∧ u.pc = .ended := by
  induction es generalizing s with
  | nil => exact ⟨s, rfl, pc_of_left hcount.symm⟩
  | cons e es ih =>
    rw [List.mem_cons, not_or] at hes
    obtain ⟨he, hes⟩ := hes
    cases e with
    | advance =>
      rw [List.count_cons_self] at hcount
      have hpc : s.pc ≠ .ended := by
        intro hpc
        rw [left, hpc] at hcount
        cases hcount
      obtain ⟨t, ht, hleft⟩ : ∃ t, advance data s = some t ∧ left data t + 1 = left data s :=
        exists_advance hpc
      obtain ⟨u, hu, hended⟩ := @ih t hes (by omega)
      refine ⟨u, ?_, hended⟩
      rw [run_cons, show step data s .advance = some t from ht]
      exact hu
    | checkpoint =>
      rw [List.count_cons_of_ne (by decide)] at hcount
      exact ih hes (hcount.trans left_checkpoint.symm)
    | resume => exact absurd rfl he

/-- What a stream that has ended leaves behind. -/
theorem Chain.covered (h : Chain data s) (hended : s.pc = .ended) :
    ∀ key ∈ data.pages.flatten, Covered data s key := by
  obtain ⟨before, hsplit, hbefore, _⟩ := h.passed
  rw [hended] at hsplit
  change _ = before ++ [] at hsplit
  rw [hsplit, List.append_nil]
  exact hbefore

/-- **A chain of runs.** However the runs crash and resume, each with the checkpoint that was
returned last: the next run, if it does not crash, comes to its end, and then every record of every
object has been emitted; and no run emits a record of an object up to a checkpoint that an earlier
one has returned. -/
theorem covered_chain (hkeys : data.pages.flatten.Pairwise (· < ·)) (es : List S3SourceEvent) :
    (∀ s, run (step data) (init data) es = some s → ∀ es', .resume ∉ es' →
        es'.count .advance = left data s →
        ∃ u, run (step data) s es' = some u ∧ u.pc = .ended
          ∧ ∀ key ∈ data.pages.flatten, Covered data u key)
      ∧ AllStates (step data)
        (fun s => s.pc = .ended → ∀ key ∈ data.pages.flatten, Covered data s key) (init data) es
      ∧ AllSteps (step data)
        (fun s _ t => ∀ r ∈ t.emitted.drop s.emitted.length, ∀ k ∈ s.returnedEarlier, k < r.key)
        (init data) es := by
  have hchain : ∀ {s : S3SourceState ρ}, Chain data s → ∀ es,
      AllStates (step data) (Chain data) s es := fun hs es =>
    allStates_of_invariant (fun s e t hs ht => chain_step hkeys hs ht) hs es
  refine ⟨fun s hs es' hes' hcount => ?_, ?_, ?_⟩
  · obtain ⟨u, hu, hended⟩ := exists_run_ended hes' hcount
    exact ⟨u, hu, hended, ((hchain ((hchain chain_init es).last hs) es').last hu).covered hended⟩
  · exact (hchain chain_init es).mono (fun s hs => hs.covered)
  · exact allSteps_of_invariant
      (fun s e t hs ht => ⟨chain_step hkeys hs ht, gt_of_emitted hs ht⟩) chain_init es

/-- Three objects on two pages. -/
def threeObjects : S3Dataset ℕ where
  pages := [["a", "b"], ["c"]]
  records key := if key = "b" then [1, 2] else [0]

theorem sorted_threeObjects : threeObjects.pages.flatten.Pairwise (· < ·) := by decide

/-- A run that crashes in the second object, after the first one's checkpoint has been returned, and
one that resumes. -/
def crashesInSecond : List S3SourceEvent :=
  [.advance, .advance, .advance, .advance, .checkpoint, .advance, .advance, .resume]

/-- The rest of the second run, with a checkpoint on its way. -/
def toTheEnd : List S3SourceEvent :=
  List.replicate 8 .advance ++ .checkpoint :: List.replicate 3 .advance

/-- The second run goes on to the end. -/
theorem covered_chain_threeObjects :
    ∃ s u, run (step threeObjects) (init threeObjects) crashesInSecond = some s
      ∧ s.resumeAfterKey = some "a"
      ∧ run (step threeObjects) s toTheEnd = some u
      ∧ u.pc = .ended
      ∧ (∀ key ∈ threeObjects.pages.flatten, Covered threeObjects u key)
      ∧ AllSteps (step threeObjects)
        (fun s _ t => ∀ r ∈ t.emitted.drop s.emitted.length, ∀ k ∈ s.returnedEarlier, k < r.key)
        (init threeObjects) crashesInSecond := by
  obtain ⟨hends, _, habove⟩ := covered_chain sorted_threeObjects crashesInSecond
  have hrun : (run (step threeObjects) (init threeObjects) crashesInSecond).any (fun s =>
      s.resumeAfterKey = some "a" ∧ left threeObjects s = 11) = true := by
    decide
  obtain ⟨s, hs, hleft⟩ := (Option.any_eq_true _ _).1 hrun
  obtain ⟨hresumed, hleft⟩ := of_decide_eq_true hleft
  have hcount : toTheEnd.count .advance = left threeObjects s := by
    rw [hleft]
    rfl
  obtain ⟨u, hu, hended, hcovered⟩ := hends s hs toTheEnd (by decide) hcount
  exact ⟨s, u, hs, hresumed, hu, hended, hcovered, habove⟩

end S3Source

import AgoraPlugins.Dict

/-!
# What is least recently used

A dictionary also has an order, and a cache may keep in it when its keys were used last: what is
used goes to the end, and what is evicted is taken from the front. A history says what was made,
used and evicted. A dictionary that is kept so has the keys that were made and not evicted since, in
the order of their last uses, and so what is evicted is the least recently used of them.
-/

namespace Dict

variable {κ ν : Type} [DecidableEq κ]

/-! ## Operations that heed the order -/

/-- The entry at the end. -/
def append (d : Dict κ ν) (k : κ) (v : ν) : Dict κ ν where
  entries := d.entries.kerase k ++ [⟨k, v⟩]
  nodupKeys := by
    refine List.nodupKeys_middle.2 (List.nodupKeys_cons.2 ?_)
    rw [List.append_nil]
    exact ⟨List.notMem_keys_kerase k d.nodupKeys, d.nodupKeys.kerase k⟩

/-- `d[k] = v`: an entry that is there stays in its place. -/
def setItem (d : Dict κ ν) (k : κ) (v : ν) : Dict κ ν :=
  if k ∈ d then d.replace k v else d.append k v

/-- `d.move_to_end(k)`. -/
def moveToEnd (d : Dict κ ν) (k : κ) : Dict κ ν :=
  match d.lookup k with
  | none => d
  | some v => d.append k v

omit [DecidableEq κ] in
/-- The first entry is taken out. -/
def popFirst (d : Dict κ ν) : Dict κ ν where
  entries := d.entries.tail
  nodupKeys := d.nodupKeys.sublist (List.tail_sublist _)

/-- The first `n` entries are taken out, one after the other; their keys, and what is left. -/
def popFirsts : ℕ → Dict κ ν → List κ × Dict κ ν
  | 0, d => ([], d)
  | n + 1, d =>
    match d.keys with
    | [] => ([], d)
    | k :: _ => ((popFirsts n d.popFirst).1.cons k, (popFirsts n d.popFirst).2)

theorem keys_append (d : Dict κ ν) (k : κ) (v : ν) :
    (d.append k v).keys = d.keys.erase k ++ [k] := by
  show List.map Sigma.fst (d.entries.kerase k ++ [⟨k, v⟩]) = _
  rw [List.map_append]
  exact congrArg (· ++ [k]) List.keys_kerase

theorem kreplace_cons_eq (k : κ) (v v' : ν) (entries : List (Σ _ : κ, ν)) :
    List.kreplace k v (⟨k, v'⟩ :: entries) = ⟨k, v⟩ :: entries :=
  List.lookmap_cons_some _ _ (if_pos rfl)

theorem kreplace_cons_ne {k k' : κ} (h : k ≠ k') (v v' : ν) (entries : List (Σ _ : κ, ν)) :
    List.kreplace k v (⟨k', v'⟩ :: entries) = ⟨k', v'⟩ :: List.kreplace k v entries :=
  List.lookmap_cons_none _ _ (if_neg h)

theorem kerase_cons_eq (k : κ) (v : ν) (entries : List (Σ _ : κ, ν)) :
    List.kerase k (⟨k, v⟩ :: entries) = entries :=
  List.kerase_cons_eq rfl

theorem kerase_kreplace (k : κ) (v : ν) (entries : List (Σ _ : κ, ν)) :
    (entries.kreplace k v).kerase k = entries.kerase k := by
  induction entries with
  | nil => rfl
  | cons e entries ih =>
    obtain ⟨k', v'⟩ := e
    by_cases hk : k = k'
    · subst hk
      rw [kreplace_cons_eq, kerase_cons_eq, kerase_cons_eq]
    · rw [kreplace_cons_ne hk, List.kerase_cons_ne hk, List.kerase_cons_ne hk, ih]

theorem dlookup_kreplace {k : κ} {entries : List (Σ _ : κ, ν)} (h : k ∈ entries.keys) (v : ν) :
    (entries.kreplace k v).dlookup k = some v := by
  induction entries with
  | nil => cases h
  | cons e entries ih =>
    obtain ⟨k', v'⟩ := e
    by_cases hk : k = k'
    · subst hk
      rw [kreplace_cons_eq, List.dlookup_cons_eq]
    · rw [kreplace_cons_ne hk, dlookup_cons_ne hk]
      exact ih ((List.mem_cons.1 h).resolve_left hk)

/-- What is set and moved is at the end. -/
theorem moveToEnd_setItem (d : Dict κ ν) (k : κ) (v : ν) :
    (d.setItem k v).moveToEnd k = d.append k v := by
  unfold setItem
  split_ifs with hmem
  · have hlookup : (d.replace k v).lookup k = some v := dlookup_kreplace hmem v
    rw [moveToEnd, hlookup]
    exact AList.ext (congrArg (· ++ [(⟨k, v⟩ : Σ _ : κ, ν)]) (kerase_kreplace k v d.entries))
  · have hlookup : (d.append k v).lookup k = some v := by
      show (d.entries.kerase k ++ [(⟨k, v⟩ : Σ _ : κ, ν)]).dlookup k = some v
      rw [List.dlookup_append, List.dlookup_kerase k d.nodupKeys, List.dlookup_cons_eq]
      rfl
    rw [moveToEnd, hlookup]
    refine AList.ext (congrArg (· ++ [(⟨k, v⟩ : Σ _ : κ, ν)]) ?_)
    show (d.entries.kerase k ++ [(⟨k, v⟩ : Σ _ : κ, ν)]).kerase k = d.entries.kerase k
    rw [List.kerase_append_right (List.notMem_keys_kerase k d.nodupKeys), kerase_cons_eq,
      List.append_nil]

theorem keys_moveToEnd {d : Dict κ ν} {k : κ} (h : k ∈ d) :
    (d.moveToEnd k).keys = d.keys.erase k ++ [k] := by
  obtain ⟨v, hv⟩ := Option.isSome_iff_exists.1 (AList.lookup_isSome.2 h)
  rw [moveToEnd, hv]
  exact keys_append d k v

omit [DecidableEq κ] in
theorem keys_popFirst (d : Dict κ ν) : d.popFirst.keys = d.keys.tail :=
  List.map_tail

end Dict

namespace Lru

variable {κ ν : Type}

/-! ## Histories -/

/-- **What happens to a key.** -/
inductive Op (κ : Type) where
  | made (k : κ)
  | used (k : κ)
  | evicted (k : κ)
  deriving DecidableEq

/-- The operation uses the key; making something is its first use. -/
def Op.Uses (k : κ) : Op κ → Prop
  | .made k' | .used k' => k' = k
  | .evicted _ => False

/-- **What is held** after a history, whose last operation comes first: what was made and not
evicted since. -/
def Held : List (Op κ) → κ → Prop
  | [], _ => False
  | .made k' :: history, k => k' = k ∨ Held history k
  | .used _ :: history, k => Held history k
  | .evicted k' :: history, k => k' ≠ k ∧ Held history k

/-- **The last use of one key was before that of the other.** -/
def UsedBefore (history : List (Op κ)) (k k' : κ) : Prop :=
  ∃ newer older, history = newer ++ older ∧ (∃ op ∈ newer, op.Uses k') ∧ ∀ op ∈ newer, ¬ op.Uses k

/-- **Whatever was evicted** was held, and was used before everything else that was. -/
def EvictsLeastRecent (history : List (Op κ)) : Prop :=
  ∀ newer k older, history = newer ++ .evicted k :: older →
    Held older k ∧ ∀ k', Held older k' → k' ≠ k → UsedBefore older k k'

/-- **Nothing is made twice** without being evicted in between. -/
def MadeOnce (history : List (Op κ)) : Prop :=
  ∀ k newer between older, history = newer ++ .made k :: (between ++ .made k :: older) →
    .evicted k ∈ between

theorem UsedBefore.cons {history : List (Op κ)} {k k' : κ} (h : UsedBefore history k k')
    {op : Op κ} (hop : ¬ op.Uses k) : UsedBefore (op :: history) k k' := by
  obtain ⟨newer, older, rfl, ⟨op', hop', huses⟩, hnot⟩ := h
  exact ⟨op :: newer, older, rfl, ⟨op', List.mem_cons_of_mem _ hop', huses⟩,
    List.forall_mem_cons.2 ⟨hop, hnot⟩⟩

theorem usedBefore_cons {k k' : κ} {op : Op κ} (huses : op.Uses k') (hnot : ¬ op.Uses k)
    (history : List (Op κ)) : UsedBefore (op :: history) k k' :=
  ⟨[op], history, rfl, ⟨op, List.mem_singleton_self op, huses⟩,
    fun _ h => List.mem_singleton.1 h ▸ hnot⟩

/-- Held is what was made and not evicted after that. -/
theorem held_iff {history : List (Op κ)} {k : κ} : Held history k ↔
    ∃ newer older, history = newer ++ .made k :: older ∧ .evicted k ∉ newer := by
  induction history with
  | nil =>
    refine iff_of_false id ?_
    rintro ⟨newer, older, heq, _⟩
    exact absurd heq.symm (by simp)
  | cons op history ih =>
    have hcons : (op = .made k ∨ op ≠ .evicted k ∧ Held history k) ↔
        ∃ newer older, op :: history = newer ++ .made k :: older ∧ .evicted k ∉ newer := by
      rw [ih]
      constructor
      · rintro (rfl | ⟨hop, newer, older, rfl, hnot⟩)
        · exact ⟨[], history, rfl, List.not_mem_nil⟩
        · exact ⟨op :: newer, older, rfl, fun hmem =>
            (List.mem_cons.1 hmem).elim (fun heq => hop heq.symm) hnot⟩
      · rintro ⟨newer, older, heq, hnot⟩
        cases newer with
        | nil => exact .inl (List.cons.inj heq).1
        | cons op' newer =>
          obtain ⟨rfl, rfl⟩ := List.cons.inj heq
          exact .inr ⟨fun heq => hnot (heq ▸ List.mem_cons_self), newer, older, rfl,
            fun hmem => hnot (List.mem_cons_of_mem _ hmem)⟩
    rw [← hcons]
    cases op with
    | made k' =>
      show k' = k ∨ Held history k ↔ _
      by_cases hk : k' = k
      · exact iff_of_true (.inl hk) (.inl (congrArg Op.made hk))
      · simp [hk]
    | used k' =>
      show Held history k ↔ _
      simp
    | evicted k' =>
      show k' ≠ k ∧ Held history k ↔ _
      simp

theorem madeOnce_nil : MadeOnce ([] : List (Op κ)) :=
  fun _ newer _ _ heq => absurd heq.symm (List.append_ne_nil_of_right_ne_nil newer (by simp))

/-- **Nothing is made twice** as long as what is made next is not held. -/
theorem madeOnce_cons_iff {history : List (Op κ)} {op : Op κ} : MadeOnce (op :: history) ↔
    MadeOnce history ∧ ∀ k, op = .made k → ¬ Held history k := by
  constructor
  · intro h
    refine ⟨fun k newer between older heq => h k (op :: newer) between older (heq ▸ rfl), ?_⟩
    rintro k rfl hheld
    obtain ⟨between, older, rfl, hnot⟩ := held_iff.1 hheld
    exact hnot (h k [] between older rfl)
  · rintro ⟨h, hfresh⟩ k newer between older heq
    cases newer with
    | nil =>
      obtain ⟨rfl, rfl⟩ := List.cons.inj heq
      by_contra hnot
      exact hfresh k rfl (held_iff.2 ⟨between, older, rfl, hnot⟩)
    | cons op' newer => exact h k newer between older (List.cons.inj heq).2

/-! ## Histories and orders -/

/-- **A list of keys in the order of their last uses.** -/
structure Tracks (keys : List κ) (history : List (Op κ)) : Prop where
  nodup : keys.Nodup
  held : ∀ k, Held history k ↔ k ∈ keys
  order : keys.Pairwise (UsedBefore history)
  evicts : EvictsLeastRecent history

theorem tracks_nil : Tracks ([] : List κ) [] where
  nodup := List.nodup_nil
  held := fun _ => by rw [List.mem_nil_iff]; rfl
  order := List.Pairwise.nil
  evicts := fun newer _ _ h => absurd h.symm (by simp)

theorem EvictsLeastRecent.cons {history : List (Op κ)} (h : EvictsLeastRecent history)
    {op : Op κ} (hop : ∀ k, op = .evicted k →
      Held history k ∧ ∀ k', Held history k' → k' ≠ k → UsedBefore history k k') :
    EvictsLeastRecent (op :: history) := by
  intro newer k older heq
  cases newer with
  | nil =>
    obtain ⟨rfl, rfl⟩ := List.cons.inj heq
    exact hop k rfl
  | cons op' newer => exact h newer k older (List.cons.inj heq).2

variable [DecidableEq κ]

/-- What is used goes to the end. -/
theorem Tracks.uses {keys : List κ} {history : List (Op κ)} (h : Tracks keys history) {k : κ}
    {op : Op κ} (hop : op = .made k ∨ op = .used k ∧ k ∈ keys) :
    Tracks (keys.erase k ++ [k]) (op :: history) := by
  have huses : ∀ k', op.Uses k' ↔ k = k' := by
    rcases hop with rfl | ⟨rfl, _⟩ <;> exact fun _ => Iff.rfl
  refine ⟨?_, fun k' => ?_, ?_, ?_⟩
  · rw [← List.concat_eq_append, List.nodup_concat]
    exact ⟨h.nodup.not_mem_erase, h.nodup.erase k⟩
  · have hheld : Held (op :: history) k' ↔ k = k' ∨ Held history k' := by
      rcases hop with rfl | ⟨rfl, hmem⟩
      · exact Iff.rfl
      · refine ⟨.inr, fun hor => hor.elim (fun heq => ?_) id⟩
        exact heq ▸ (h.held k).2 hmem
    rw [hheld, h.held, List.mem_append, List.mem_singleton]
    by_cases hk : k' = k
    · exact iff_of_true (.inl hk.symm) (.inr hk)
    · rw [List.mem_erase_of_ne hk]
      tauto
  · rw [List.pairwise_append]
    have herase : ∀ k' ∈ keys.erase k, ¬ op.Uses k' := fun k' hk' hu =>
      (List.Nodup.mem_erase_iff h.nodup).1 hk' |>.1 ((huses k').1 hu).symm
    refine ⟨?_, List.pairwise_singleton _ _, fun k' hk' k'' hk'' => ?_⟩
    · exact (h.order.sublist List.erase_sublist).imp_of_mem (fun hk _ hbefore =>
        hbefore.cons (herase _ hk))
    · exact usedBefore_cons ((huses k'').2 (List.mem_singleton.1 hk'').symm) (herase k' hk') history
  · refine h.evicts.cons (fun k' heq => ?_)
    rcases hop with rfl | ⟨rfl, _⟩ <;> cases heq

omit [DecidableEq κ] in
/-- What is evicted is the first. -/
theorem Tracks.evict {k : κ} {keys : List κ} {history : List (Op κ)}
    (h : Tracks (k :: keys) history) : Tracks keys (.evicted k :: history) := by
  obtain ⟨hfresh, hnodup⟩ := List.nodup_cons.1 h.nodup
  obtain ⟨hbefore, horder⟩ := List.pairwise_cons.1 h.order
  refine ⟨hnodup, fun k' => ?_, ?_, h.evicts.cons (fun k' heq => ?_)⟩
  · show k ≠ k' ∧ Held history k' ↔ k' ∈ keys
    rw [h.held, List.mem_cons]
    constructor
    · rintro ⟨hne, hor⟩
      exact hor.resolve_left (Ne.symm hne)
    · intro hmem
      exact ⟨fun heq => hfresh (heq ▸ hmem), .inr hmem⟩
  · exact horder.imp (fun hused => hused.cons id)
  · cases heq
    refine ⟨(h.held k).2 List.mem_cons_self, fun k' hheld hne => ?_⟩
    exact hbefore k' ((List.mem_cons.1 ((h.held k').1 hheld)).resolve_left hne)

end Lru

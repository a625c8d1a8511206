import AgoraPlugins.Fallible
import AgoraPlugins.FirstOccurrences
import AgoraPlugins.Postgres.WritePlan

/-!
# Upserts of rows with different columns

When rows are aligned to the target table they may lack columns, and a flush
writes them batch by batch: those with the same columns together. What it leaves
in the table should be what one upsert per row would leave, in the order they
were written.

But rows for one key may be in different batches, and then the batches decide in
which order they are upserted. A row that is written last and has the columns of
the first goes with the first: what was written in between is upserted after it,
and wins. The law holds of exactly the flushes all of whose statements can be
executed and in which, for every key and column, the row that is written last
has the value of the row that is upserted last.
-/

open FirstOccurrences Upsert

namespace WriteConfig

variable {κ ν : Type} [DecidableEq κ] (cfg : WriteConfig κ ν)

/-- The rows in the buffer after the rows have been written: those whose
alignment does not raise. -/
def written (rows : List (Row κ ν)) : List (Row κ ν) :=
  rows.filterMap (fun row => (cfg.normalizeRow row).toOption)

/-- The rows in the order in which a flush upserts them. -/
def grouped (rows : List (Row κ ν)) : List (Row κ ν) :=
  (cfg.groupRows rows).flatMap PreparedWriteBatch.rows

variable {cfg}

/-! ## Alignment -/

/-- Alignment drops columns. -/
theorem eq_restrict_of_normalizeRow {row normalized : Row κ ν}
    (h : cfg.normalizeRow row = .ok normalized) :
    normalized = Dict.restrict cfg.writable row := by
  unfold normalizeRow at h
  dsimp only at h
  split at h
  · cases h
  · split at h
    · cases h
    · split at h
      · cases h
      · exact (Except.ok.inj h).symm

/-- A row that has been aligned is aligned. -/
theorem normalizeRow_of_ok {row normalized : Row κ ν}
    (h : cfg.normalizeRow row = .ok normalized) :
    cfg.normalizeRow normalized = .ok normalized
      ∧ ∀ c ∈ normalized.keys, cfg.writable c = true := by
  have hnormalized := eq_restrict_of_normalizeRow h
  have hwritable : ∀ c ∈ normalized.keys, cfg.writable c = true := by
    intro c hc
    rw [hnormalized] at hc
    exact (Dict.mem_keys_restrict.1 hc).2
  refine ⟨?_, hwritable⟩
  have hsame : Dict.restrict cfg.writable normalized = normalized :=
    Dict.restrict_eq_self hwritable
  rw [← h]
  unfold normalizeRow
  rw [hsame, hnormalized]

theorem mem_written {rows : List (Row κ ν)} {row : Row κ ν} (h : row ∈ cfg.written rows) :
    cfg.normalizeRow row = .ok row ∧ ∀ c ∈ row.keys, cfg.writable c = true := by
  obtain ⟨raw, _, hraw⟩ := List.mem_filterMap.1 h
  cases hn : cfg.normalizeRow raw with
  | error e =>
    rw [hn] at hraw
    cases hraw
  | ok normalized =>
    rw [hn] at hraw
    obtain rfl : normalized = row := Option.some.inj hraw
    exact normalizeRow_of_ok hn

/-- The ordered columns of an aligned row are its columns. -/
theorem toFinset_orderedColumns {row : Row κ ν} (h : ∀ c ∈ row.keys, cfg.writable c = true) :
    (cfg.orderedColumns row).toFinset = row.keys.toFinset := by
  ext c
  rw [List.mem_toFinset, List.mem_toFinset]
  unfold orderedColumns
  rw [List.mem_filter, decide_eq_true_eq]
  refine ⟨And.right, fun hc => ⟨?_, hc⟩⟩
  have hwritable := h c hc
  unfold writable at hwritable
  obtain ⟨column, hmem, hcolumn⟩ := List.any_eq_true.1 hwritable
  rw [Bool.and_eq_true_iff, decide_eq_true_eq] at hcolumn
  exact List.mem_map.2 ⟨column, List.mem_filter.2 ⟨hmem, hcolumn.2⟩, hcolumn.1⟩

/-! ## Groups -/

/-- The rows of a batch have its columns. -/
def Uniform (cfg : WriteConfig κ ν) (batch : PreparedWriteBatch κ ν) : Prop :=
  ∀ row ∈ batch.rows, cfg.orderedColumns row = batch.columns

/-- **A row joins the groups**: it is one row more, and it is with its like. -/
theorem addToGroup_spec (row : Row κ ν) :
    ∀ batches : List (PreparedWriteBatch κ ν), (∀ batch ∈ batches, Uniform cfg batch) →
      (∀ batch ∈ addToGroup (cfg.orderedColumns row) row batches, Uniform cfg batch)
      ∧ ((addToGroup (cfg.orderedColumns row) row batches).flatMap
          PreparedWriteBatch.rows).Perm
        (row :: batches.flatMap PreparedWriteBatch.rows)
  | [], _ => by
    unfold addToGroup Uniform
    simp
  | batch :: batches, h => by
    obtain ⟨hbatch, hbatches⟩ := List.forall_mem_cons.1 h
    unfold addToGroup
    split
    · rename_i hcolumns
      constructor
      · refine List.forall_mem_cons.2 ⟨fun row' hrow' => ?_, hbatches⟩
        rcases List.mem_append.1 hrow' with hrow' | hrow'
        · exact hbatch row' hrow'
        · rw [List.mem_singleton.1 hrow']
          exact hcolumns.symm
      · simp only [List.flatMap_cons, List.append_assoc, List.singleton_append]
        exact List.perm_middle
    · obtain ⟨huniform, hperm⟩ := addToGroup_spec row batches hbatches
      constructor
      · exact List.forall_mem_cons.2 ⟨hbatch, huniform⟩
      · simp only [List.flatMap_cons]
        exact (hperm.append_left batch.rows).trans List.perm_middle

/-- **Grouping rows loses none of them**, and the rows of a batch have its
columns. By induction from the last row on. -/
theorem groupRows_spec (rows : List (Row κ ν)) :
    (∀ batch ∈ cfg.groupRows rows, Uniform cfg batch) ∧ (cfg.grouped rows).Perm rows := by
  induction rows using List.reverseRecOn with
  | nil => exact ⟨nofun, List.Perm.nil⟩
  | append_singleton rows row ih =>
    obtain ⟨huniform, hperm⟩ := ih
    have hstep : cfg.groupRows (rows ++ [row])
        = addToGroup (cfg.orderedColumns row) row (cfg.groupRows rows) := by
      unfold groupRows
      rw [List.foldl_append]
      rfl
    obtain ⟨huniform', hperm'⟩ := addToGroup_spec row (cfg.groupRows rows) huniform
    unfold grouped at hperm ⊢
    rw [hstep]
    refine ⟨huniform', hperm'.trans ?_⟩
    exact (hperm.cons row).trans (List.perm_append_singleton row rows).symm

/-! ## The order of the column sets -/

/-- The column set of a row. -/
def columnSet (row : Row κ ν) : Finset κ := row.keys.toFinset

/-- **The rows column set by column set**, in the order in which the column sets
first occur. -/
def setBySet (rows : List (Row κ ν)) : List (Row κ ν) :=
  (rows.map columnSet).eraseDups.flatMap
    (fun columns => rows.filter (fun row => columnSet row = columns))

/-- Among groups made of distinct columns, a row joins the one made of its own. -/
theorem addToGroup_map {columns : List κ} {row : Row κ ν} {rowsOf : List κ → List (Row κ ν)} :
    ∀ {l : List (List κ)}, l.Nodup →
      addToGroup columns row (l.map (fun c => ⟨c, rowsOf c⟩))
        = l.map (fun c => ⟨c, if c = columns then rowsOf c ++ [row] else rowsOf c⟩)
          ++ if columns ∈ l then [] else [⟨columns, [row]⟩]
  | [], _ => rfl
  | c :: l, h => by
    obtain ⟨hnot, hnodup⟩ := List.nodup_cons.1 h
    by_cases hc : c = columns
    · subst hc
      have hrest : ∀ c' ∈ l, (if c' = c then rowsOf c' ++ [row] else rowsOf c') = rowsOf c' :=
        by
        intro c' hc'
        refine if_neg (fun heq => hnot ?_)
        rw [← heq]
        exact hc'
      simp only [List.map_cons, addToGroup, if_true, List.mem_cons, true_or, List.append_nil]
      refine congrArg (_ :: ·) (List.map_congr_left (fun c' hc' => ?_))
      rw [hrest c' hc']
    · have hmem : (columns ∈ c :: l) = (columns ∈ l) :=
        propext ⟨fun h => (List.mem_cons.1 h).resolve_left (Ne.symm hc), List.mem_cons_of_mem c⟩
      simp only [List.map_cons, addToGroup, if_neg hc, hmem, List.cons_append]
      rw [addToGroup_map hnodup]

/-- **The batches are the column lists in the order of their first occurrence**,
each with its rows in the order in which they were written. -/
theorem groupRows_eq (rows : List (Row κ ν)) :
    cfg.groupRows rows = (rows.map cfg.orderedColumns).eraseDups.map
      (fun columns => ⟨columns, rows.filter (fun row => cfg.orderedColumns row = columns)⟩) := by
  induction rows using List.reverseRecOn with
  | nil => rfl
  | append_singleton rows row ih =>
    have hstep : cfg.groupRows (rows ++ [row])
        = addToGroup (cfg.orderedColumns row) row (cfg.groupRows rows) := by
      unfold groupRows
      rw [List.foldl_append]
      rfl
    have hfilter : ∀ columns, (rows ++ [row]).filter (fun row => cfg.orderedColumns row = columns)
        = if columns = cfg.orderedColumns row
          then rows.filter (fun row => cfg.orderedColumns row = columns) ++ [row]
          else rows.filter (fun row => cfg.orderedColumns row = columns) := by
      intro columns
      by_cases h : cfg.orderedColumns row = columns
      · simp [h, List.filter_append]
      · simp [h, Ne.symm h, List.filter_append]
    rw [hstep, ih, addToGroup_map (nodup_eraseDups _), List.map_append, List.map_singleton]
    simp only [List.mem_eraseDups, hfilter]
    by_cases hmem : cfg.orderedColumns row ∈ rows.map cfg.orderedColumns
    · rw [if_pos hmem, eraseDups_concat_of_mem hmem, List.append_nil]
    · -- the columns are new, so no earlier row has them
      have hnone : rows.filter (fun row' => cfg.orderedColumns row' = cfg.orderedColumns row)
          = [] := by
        refine List.filter_eq_nil_iff.2 (fun row' hrow' heq => hmem ?_)
        exact List.mem_map.2 ⟨row', hrow', of_decide_eq_true heq⟩
      rw [if_neg hmem, eraseDups_concat_of_not_mem hmem, List.map_append, List.map_singleton,
        if_pos rfl, hnone, List.nil_append]

/-- Aligned rows have the same ordered columns if they have the same columns. -/
theorem orderedColumns_eq_iff {row row' : Row κ ν}
    (h : ∀ c ∈ row.keys, cfg.writable c = true) (h' : ∀ c ∈ row'.keys, cfg.writable c = true) :
    cfg.orderedColumns row = cfg.orderedColumns row' ↔ columnSet row = columnSet row' := by
  unfold columnSet
  constructor
  · intro heq
    rw [← toFinset_orderedColumns h, heq, toFinset_orderedColumns h']
  · intro heq
    unfold orderedColumns
    refine List.filter_congr (fun c _ => decide_eq_decide.2 ?_)
    rw [← List.mem_toFinset, heq, List.mem_toFinset]

/-- **A flush takes aligned rows column set by column set.** -/
theorem grouped_eq_setBySet {rows : List (Row κ ν)}
    (h : ∀ row ∈ rows, ∀ c ∈ row.keys, cfg.writable c = true) :
    cfg.grouped rows = setBySet rows := by
  have hsets : rows.map columnSet = (rows.map cfg.orderedColumns).map List.toFinset := by
    rw [List.map_map]
    exact List.map_congr_left (fun row hrow => (toFinset_orderedColumns (h row hrow)).symm)
  have hapart : ∀ a ∈ rows.map cfg.orderedColumns, ∀ b ∈ rows.map cfg.orderedColumns,
      a.toFinset = b.toFinset → a = b := by
    intro a ha b hb heq
    obtain ⟨row, hrow, rfl⟩ := List.mem_map.1 ha
    obtain ⟨row', hrow', rfl⟩ := List.mem_map.1 hb
    rw [toFinset_orderedColumns (h row hrow), toFinset_orderedColumns (h row' hrow')] at heq
    exact (orderedColumns_eq_iff (h row hrow) (h row' hrow')).2 heq
  unfold grouped setBySet
  rw [groupRows_eq, hsets, eraseDups_map _ hapart, List.flatMap_map, List.flatMap_map]
  refine List.flatMap_congr (fun columns hcolumns => ?_)
  obtain ⟨row, hrow, rfl⟩ := List.mem_map.1 (List.mem_eraseDups.1 hcolumns)
  refine List.filter_congr (fun row' hrow' => decide_eq_decide.2 ?_)
  rw [orderedColumns_eq_iff (h row' hrow') (h row hrow), toFinset_orderedColumns (h row hrow)]
  exact Iff.rfl

/-! ## The law -/

variable [DecidableEq ν]

variable (cfg) in
/-- **The value of a column that the last row for a key sets**, of the rows that
set it. -/
def lastSet (k : Key ν) (c : κ) (rows : List (Row κ ν)) : Option (Option ν) :=
  lastUpdate c (withKey cfg.conflictKeys k
    (rows.map (fun row => cfg.rowProposal row.keys.toFinset row)))

variable (cfg) in
/-- **All statements of a flush can be executed.** -/
def AllExecutable (rows : List (Row κ ν)) : Prop :=
  ∀ batch ∈ cfg.groupRows rows, ∀ chunk ∈ cfg.statements batch,
    cfg.Executable batch.columns.toFinset chunk

instance (rows : List (Row κ ν)) : Decidable (cfg.AllExecutable rows) :=
  inferInstanceAs (Decidable (∀ batch ∈ cfg.groupRows rows, _))

variable (cfg) in
/-- **The last row written for a key has the value of the one that is last column
set by column set**, for every column. -/
def LastWins (rows : List (Row κ ν)) : Prop :=
  ∀ k c, cfg.lastSet k c rows = cfg.lastSet k c (setBySet rows)

/-- **A flush of aligned rows.** -/
theorem flush_aligned_eq_ok_iff (hpolicy : cfg.policy = .alignToTarget) (rows : List (Row κ ν))
    {t u : Table κ ν} :
    cfg.flush t (cfg.written rows) = .ok u
      ↔ cfg.AllExecutable (cfg.written rows)
        ∧ u = upserts cfg.conflictKeys t ((cfg.grouped (cfg.written rows)).map
          (fun row => cfg.rowProposal row.keys.toFinset row)) := by
  have hwritten : ∀ row ∈ cfg.written rows,
      cfg.normalizeRow row = .ok row ∧ ∀ c ∈ row.keys, cfg.writable c = true :=
    fun row => mem_written
  generalize cfg.written rows = buffer at hwritten
  obtain ⟨huniform, hperm⟩ := @groupRows_spec _ _ _ cfg buffer
  have hprepared : cfg.preparedWriteBatches buffer = .ok (cfg.groupRows buffer) := by
    unfold preparedWriteBatches
    cases buffer with
    | nil => rfl
    | cons row rows =>
      have hmap : (row :: rows).mapM cfg.normalizeRow = .ok (row :: rows) :=
        Fallible.mapM_eq_self (fun row hrow => (hwritten row hrow).1)
      rw [hpolicy]
      dsimp only
      unfold alignRowsToTarget
      rw [hmap]
      rfl
  have hcolumns : ∀ batch ∈ cfg.groupRows buffer, ∀ row ∈ batch.rows,
      row.keys.toFinset = batch.columns.toFinset := by
    intro batch hbatch row hrow
    have hmem : row ∈ buffer :=
      hperm.mem_iff.1 (List.mem_flatMap.2 ⟨batch, hbatch, hrow⟩)
    rw [← huniform batch hbatch row hrow, toFinset_orderedColumns (hwritten row hmem).2]
  have hflush : cfg.flush t buffer = (cfg.groupRows buffer).foldlM cfg.executeBatch t := by
    unfold flush
    rw [hprepared]
    rfl
  rw [hflush, foldlM_eq_ok_iff (g := fun t batch => upserts cfg.conflictKeys t
      (batch.rows.map (cfg.rowProposal batch.columns.toFinset)))
    (P := fun batch => ∀ chunk ∈ cfg.statements batch,
      cfg.Executable batch.columns.toFinset chunk), foldl_upserts]
  · have hproposals : (cfg.groupRows buffer).flatMap
        (fun batch => batch.rows.map (cfg.rowProposal batch.columns.toFinset))
        = (cfg.grouped buffer).map (fun row => cfg.rowProposal row.keys.toFinset row) := by
      unfold grouped
      rw [List.map_flatMap]
      refine List.flatMap_congr (fun batch hbatch => List.map_congr_left (fun row hrow => ?_))
      rw [hcolumns batch hbatch row hrow]
    rw [hproposals]
    exact Iff.rfl
  · exact fun s batch hbatch v => executeBatch_eq_ok_iff (hcolumns batch hbatch)

omit [DecidableEq ν] in
/-- Rows agree on the columns they do not set: they have the same key there, or
the default. -/
theorem agree_rowProposals (hupsert : cfg.upsert = true) (rows : List (Row κ ν)) :
    Agree cfg.conflictKeys
      (rows.map (fun row => cfg.rowProposal row.keys.toFinset row)) := by
  intro p hp q hq hkey hsome c hpc hqc
  obtain ⟨row, _, rfl⟩ := List.mem_map.1 hp
  obtain ⟨row', _, rfl⟩ := List.mem_map.1 hq
  by_cases hc : c ∈ cfg.conflictKeys
  · unfold key at hkey hsome
    split at hkey
    · split at hkey
      · exact List.map_inj_left.1 (Option.some.inj hkey) c hc
      · cases hkey
    · rename_i hnull
      rw [if_neg hnull] at hsome
      exact absurd rfl hsome
  · have hdefault : ∀ row : Row κ ν, c ∉ (cfg.rowProposal row.keys.toFinset row).updates →
        (cfg.rowProposal row.keys.toFinset row).tuple c = cfg.default c := by
      intro row hrow
      have hcolumn : c ∉ row.keys.toFinset := by
        intro hmem
        refine hrow ?_
        show c ∈ cfg.updateSet _
        unfold updateSet
        rw [hupsert, if_pos rfl]
        exact Finset.mem_filter.2 ⟨hmem, hc⟩
      show cfg.tupleOf _ row c = _
      unfold tupleOf
      rw [if_neg hcolumn]
    rw [hdefault row hpc, hdefault row' hqc]

/-- Accounts by their number, with a balance and a limit that may be missing. -/
def accounts : WriteConfig String ℕ where
  conflictKeys := ["id"]
  policy := .alignToTarget
  targetColumns := [{ name := "id" }, { name := "balance" }, { name := "limit" }]

/-- A row with the balance of an account. -/
def balanceRow (number balance : ℕ) : Row String ℕ :=
  (AList.singleton "id" (some number)).insert "balance" (some balance)

/-- A row with its limit as well. -/
def limitRow (number balance limit : ℕ) : Row String ℕ :=
  (balanceRow number balance).insert "limit" (some limit)

/-- A table with no rows. -/
def noAccounts : Table String ℕ := ⟨fun _ => none, 0⟩

/-- The balance of an account. -/
def balanceOf (t : Table String ℕ) (number : ℕ) : Option (Option ℕ) :=
  (t.byKey [some number]).map (fun tuple => tuple "balance")

end WriteConfig

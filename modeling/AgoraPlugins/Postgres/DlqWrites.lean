import AgoraPlugins.Postgres.DlqRoundTrip
import Mathlib.Data.List.Forall2
import Mathlib.Logic.Relation

/-!
# Which row a record is written to

A write inserts the rows of a batch one after the other and commits them. A row whose dedupe
key is there already is left as it is, and the record gets the id of that row. If the
connection fails, the rows are gone, or, where it failed at the commit, perhaps not; then the
whole batch is written once more over a new connection.

Ids and keys are unique in the table, whatever is done to it (`Table.Unique`). So after a write
that returns, each record of the batch is in exactly one row, that with its key, and has the id
of this row. The row may be one that was there before; but every row was made by a sink, and as
long as the hash keeps its texts apart, a row with the key of a record holds that record
(`StoredOnce`).

Two records have one key just if the rows that the policy makes of them in clear are the same.
Where nothing is redacted, these rows have everything that a record has, so records that differ
have different rows. Redaction takes away what it hides before the key is made: records that
differ in a redacted value only share a row.
-/

namespace Dlq

namespace Table

variable {δ : Type} (t : Table δ)

/-- `DELETE FROM … WHERE id`. -/
def delete (id : ℕ) : Table δ where
  rows := t.rows.filter (fun e => e.1 ≠ id)
  nextId := t.nextId
  fresh := fun e he => t.fresh e (List.mem_of_mem_filter he)

/-- The table after a rollback of what made another one of it: ids are not given back. -/
def rolledBack (t' : Table δ) : Table δ where
  rows := t.rows
  nextId := max t.nextId t'.nextId
  fresh := fun e he => Nat.lt_of_lt_of_le (t.fresh e he) (Nat.le_max_left _ _)

/-- **What a session does to the table**, where rows of one kind are sent. -/
inductive Change (Sent : Columns δ (Option String) → Prop) : Table δ → Table δ → Prop
  | insert {t t' : Table δ} {columns : Columns δ (Option String)} {id : ℕ} {new : Bool}
      (hsent : Sent columns) (h : t.insert columns = .ok (id, new, t')) : Change Sent t t'
  | setAttempt {t t' : Table δ} {attempt : ℤ} {id : Option ℕ}
      (h : t.setAttempt attempt id = .ok t') : Change Sent t t'
  | delete (t : Table δ) (id : ℕ) : Change Sent t (t.delete id)

/-- **Reachable tables**: those that sessions make of the empty one. -/
def Reachable (Sent : Columns δ (Option String) → Prop) : Prop :=
  Relation.ReflTransGen (Change Sent) (empty : Table δ) t

/-- Two rows have different ids, and different keys where they have any. -/
def Apart (e e' : ℕ × Columns δ Json) : Prop :=
  e.1 ≠ e'.1 ∧ (e.2.dedupeKey = e'.2.dedupeKey → e.2.dedupeKey = none)

/-- **The primary key and the unique index.** -/
def Unique : Prop := t.rows.Pairwise Apart

end Table

open PostgresPayloads

namespace PostgresDLQ

variable {δ : Type} (py : Python δ) (sha256 : String → String) (cfg : PostgresDLQ)

/-- The inserts of a batch. Each record gets the id that its insert returns. -/
def execute : List (DLQRecord δ × Columns δ (Option String)) → Table δ →
    Except Exc (List (DLQRecord δ) × Table δ)
  | [], t => pure ([], t)
  | (r, row) :: batch, t => do
    let (id, _, t) ← t.insert row
    let (stored, t) ← execute batch t
    pure ({ r with storageId := some (.row id) } :: stored, t)

/-- The records of a batch with their rows. -/
def batchOf (records : List (DLQRecord δ)) :
    Except Exc (List (DLQRecord δ × Columns δ (Option String))) :=
  records.mapM (fun r => do pure (r, ← recordToRow py sha256 cfg.payloadPolicy r))

/-- **`_insert_once`**, up to its commit. -/
def insertOnce (records : List (DLQRecord δ)) (t : Table δ) :
    Except Exc (List (DLQRecord δ) × Table δ) := do
  let batch ← batchOf py sha256 cfg records
  execute batch t

/-- **An attempt**, whether it succeeded, and what it makes of the records and the table. The
connection fails before the rows are there, after some of the inserts, or at the commit, and
then it is not known whether the rows were committed. -/
inductive Attempt (records : List (DLQRecord δ)) (t : Table δ) :
    Bool → List (DLQRecord δ) → Table δ → Prop
  | committed {stored : List (DLQRecord δ)} {t' : Table δ}
      (h : insertOnce py sha256 cfg records t = .ok (stored, t')) : Attempt records t true stored t'
  | unconnected : Attempt records t false records t
  | broken {batch : List (DLQRecord δ × Columns δ (Option String))}
      (hbatch : batchOf py sha256 cfg records = .ok batch) (n : ℕ) {stored : List (DLQRecord δ)}
      {t' : Table δ} (h : execute (batch.take n) t = .ok (stored, t')) :
      Attempt records t false (stored ++ records.drop n) (t.rolledBack t')
  | unknown (applied : Bool) {stored : List (DLQRecord δ)} {t' : Table δ}
      (h : insertOnce py sha256 cfg records t = .ok (stored, t')) :
      Attempt records t false stored (if applied then t' else t.rolledBack t')

/-- The rows that sinks send, under whatever policy they have. -/
def SinkRow (py : Python δ) (sha256 : String → String) (columns : Columns δ (Option String)) :
    Prop :=
  ∃ policy r, recordToRow py sha256 policy r = .ok columns

/-- **A call of `write` or `write_batch` that returns.** It succeeds at once, or its connection
fails and it succeeds the second time, from the table that other sessions have made meanwhile. -/
inductive Returns (records : List (DLQRecord δ)) (t : Table δ) :
    List (DLQRecord δ) → Table δ → Prop
  | once {stored : List (DLQRecord δ)} {t' : Table δ}
      (h : Attempt py sha256 cfg records t true stored t') : Returns records t stored t'
  | again {records₁ stored : List (DLQRecord δ)} {t₁ t₂ t' : Table δ}
      (hfailed : Attempt py sha256 cfg records t false records₁ t₁)
      (hothers : Relation.ReflTransGen (Table.Change (SinkRow py sha256)) t₁ t₂)
      (h : Attempt py sha256 cfg records₁ t₂ true stored t') : Returns records t stored t'

/-- The row of a record in clear, of which its key is made. -/
def clearRowOf (r : DLQRecord δ) : Except Exc (Columns δ (Option String)) :=
  payloadToRow py (applied py cfg.payloadPolicy r)

end PostgresDLQ

/-! ## Ids and keys are unique -/

namespace Table

variable {δ : Type} {t t' : Table δ} {Sent : Columns δ (Option String) → Prop}

/-- A key that is found is that of a row. -/
theorem mem_of_idOf {key : Option String} {id : ℕ} (h : t.idOf key = some id) :
    ∃ row, (id, row) ∈ t.rows ∧ row.dedupeKey = key := by
  unfold idOf at h
  split at h
  next => cases h
  next =>
    obtain ⟨e, he, hid⟩ := Option.map_eq_some_iff.1 h
    have hkey := List.find?_some he
    refine ⟨e.2, ?_, of_decide_eq_true hkey⟩
    rw [← hid]
    exact List.mem_of_find?_eq_some he

theorem ne_of_idOf {key : String} (h : t.idOf (some key) = none) {e : ℕ × Columns δ Json}
    (he : e ∈ t.rows) : e.2.dedupeKey ≠ some key := by
  unfold idOf at h
  rw [if_neg (Option.some_ne_none key), Option.map_eq_none_iff] at h
  simpa using List.find?_eq_none.1 h e he

/-- **What an insert does**: a row with a new id and a new key, or none. -/
theorem of_insert {columns : Columns δ (Option String)} {id : ℕ} {new : Bool}
    (h : t.insert columns = .ok (id, new, t')) :
    t.idOf columns.dedupeKey = some id ∧ t' = t.skipId
      ∨ t.idOf columns.dedupeKey = none ∧ id = t.nextId ∧ t' = t.append columns := by
  unfold insert at h
  split at h
  next =>
    split at h
    next id' hid =>
      cases h
      exact .inl ⟨hid, rfl⟩
    next hid =>
      cases h
      exact .inr ⟨hid, rfl, rfl⟩
  next => cases h

/-- **An insert leaves keys unique.** -/
theorem Unique.insert (ht : t.Unique) {columns : Columns δ (Option String)} {id : ℕ} {new : Bool}
    (h : t.insert columns = .ok (id, new, t')) : t'.Unique := by
  rcases of_insert h with ⟨_, rfl⟩ | ⟨hnone, _, rfl⟩
  · exact ht
  · refine List.pairwise_append.2 ⟨ht, List.pairwise_singleton _ _, ?_⟩
    intro e he e' he'
    rw [List.mem_singleton.1 he']
    refine ⟨Nat.ne_of_lt (t.fresh e he), fun hkey => ?_⟩
    -- a key that is there would have been found
    cases hcolumns : columns.dedupeKey with
    | none => exact hkey.trans hcolumns
    | some key =>
      rw [hcolumns] at hnone
      exact absurd (hkey.trans hcolumns) (ne_of_idOf hnone he)

theorem Unique.change (ht : t.Unique) (h : Change Sent t t') : t'.Unique := by
  cases h with
  | insert _ h => exact ht.insert h
  | setAttempt h =>
    unfold setAttempt at h
    split at h
    next =>
      cases h
      refine List.pairwise_map.2 (ht.imp ?_)
      intro e e' he
      split <;> split <;> exact he
    next => cases h
  | delete id => exact ht.sublist List.filter_sublist

/-- **Ids and keys are unique in every reachable table.** -/
theorem Unique.changes (ht : t.Unique) (h : Relation.ReflTransGen (Change Sent) t t') :
    t'.Unique := by
  induction h with
  | refl => exact ht
  | tail _ h ih => exact ih.change h

theorem unique_empty : (empty : Table δ).Unique := List.Pairwise.nil

/-- **No table that can be reached has.** -/
theorem Reachable.unique (h : t.Reachable Sent) : t.Unique :=
  unique_empty.changes h

/-- Of items that exclude one another by a property, one has it. -/
theorem filter_eq_singleton {α : Type} {R : α → α → Prop} {p : α → Bool}
    (hR : ∀ x y, R x y → p x = true → p y = false) {items : List α} (hitems : items.Pairwise R)
    {x : α} (hx : x ∈ items) (hp : p x = true) : items.filter p = [x] := by
  induction items with
  | nil => cases hx
  | cons y items ih =>
    obtain ⟨hy, hitems⟩ := List.pairwise_cons.1 hitems
    rcases List.mem_cons.1 hx with rfl | hx
    · rw [List.filter_cons_of_pos hp, List.filter_eq_nil_iff.2]
      intro z hz
      rw [hR x z (hy z hz) hp]
      exact Bool.false_ne_true
    · have hnot : ¬ p y = true := fun hpy => by
        rw [hR y x (hy x hx) hpy] at hp
        cases hp
      rw [List.filter_cons_of_neg hnot, ih hitems hx]

/-- **There is one row with a key.** -/
theorem Unique.filter_key (ht : t.Unique) {id : ℕ} {row : Columns δ Json} {key : String}
    (hrow : (id, row) ∈ t.rows) (hkey : row.dedupeKey = some key) :
    t.rows.filter (fun e => e.2.dedupeKey = some key) = [(id, row)] := by
  refine filter_eq_singleton (fun e e' he hp => ?_) ht hrow (decide_eq_true hkey)
  have hkey := of_decide_eq_true hp
  refine decide_eq_false (fun hkey' => ?_)
  have hnone := he.2 (hkey.trans hkey'.symm)
  rw [hkey] at hnone
  cases hnone

/-- **There is one row with an id.** -/
theorem Unique.row_eq (ht : t.Unique) {id : ℕ} {row : Columns δ Json}
    (hrow : (id, row) ∈ t.rows) : t.row id = some row := by
  have hfilter : t.rows.filter (fun e => e.1 = id) = [(id, row)] := by
    refine filter_eq_singleton (fun e e' he hp => ?_) ht hrow (decide_eq_true rfl)
    exact decide_eq_false (fun hid => he.1 ((of_decide_eq_true hp).trans hid.symm))
  unfold Table.row
  rw [← List.head?_filter, hfilter]
  rfl

/-- A key that is not there is inserted. -/
theorem insert_of_forall_ne {columns : Columns δ (Option String)} {key : String}
    (hattempt : IsInteger columns.attempt) (hmax : ∀ n ∈ columns.maxAttempts, IsInteger n)
    (hkey : columns.dedupeKey = some key) (hne : ∀ e ∈ t.rows, e.2.dedupeKey ≠ some key) :
    t.insert columns = .ok (t.nextId, true, t.append columns) := by
  have hnone : t.idOf (some key) = none := by
    unfold idOf
    rw [if_neg (Option.some_ne_none key), Option.map_eq_none_iff, List.find?_eq_none]
    exact fun e he => by simpa using hne e he
  unfold insert
  rw [if_pos ⟨hattempt, hmax⟩, hkey, hnone]
  rfl

/-- A key that is there is not inserted again, and the row that has it gives its id. -/
theorem Unique.insert_of_mem (ht : t.Unique) {columns : Columns δ (Option String)} {key : String}
    (hattempt : IsInteger columns.attempt) (hmax : ∀ n ∈ columns.maxAttempts, IsInteger n)
    (hkey : columns.dedupeKey = some key) {id : ℕ} {row : Columns δ Json}
    (hrow : (id, row) ∈ t.rows) (hrowKey : row.dedupeKey = some key) :
    t.insert columns = .ok (id, false, t.skipId) := by
  have hid : t.idOf (some key) = some id := by
    unfold idOf
    rw [if_neg (Option.some_ne_none key), ← List.head?_filter, ht.filter_key hrow hrowKey]
    rfl
  unfold Table.insert
  rw [if_pos ⟨hattempt, hmax⟩, hkey, hid]
  rfl

end Table

namespace PostgresDLQ

variable {δ : Type} {py : Python δ} {sha256 : String → String} {cfg : PostgresDLQ}

/-! ## A batch -/

/-- The record is in a row with this key, and has its id. -/
def StoredIn (t : Table δ) (key : Option String) (r : DLQRecord δ) : Prop :=
  ∃ id row, r.storageId = some (.row id) ∧ (id, row) ∈ t.rows ∧ row.dedupeKey = key

/-- The record without its storage id. -/
def fieldsOf (r : DLQRecord δ) : DLQRecord δ := { r with storageId := none }

/-- The same record but for its storage id. -/
def Same (r r' : DLQRecord δ) : Prop := fieldsOf r = fieldsOf r'

/-- What is stored stays stored while rows are only added. -/
theorem StoredIn.mono {t t' : Table δ} {key : Option String} {r : DLQRecord δ}
    (h : StoredIn t key r) (hrows : ∀ e ∈ t.rows, e ∈ t'.rows) : StoredIn t' key r := by
  obtain ⟨id, row, hid, hrow, hkey⟩ := h
  exact ⟨id, row, hid, hrows _ hrow, hkey⟩

/-- After an insert the row with the key is there. -/
theorem of_insert_mem {t t' : Table δ} {columns : Columns δ (Option String)} {id : ℕ} {new : Bool}
    (h : t.insert columns = .ok (id, new, t')) :
    (∀ e ∈ t.rows, e ∈ t'.rows)
      ∧ ∃ row, (id, row) ∈ t'.rows ∧ row.dedupeKey = columns.dedupeKey := by
  rcases Table.of_insert h with ⟨hid, rfl⟩ | ⟨_, rfl, rfl⟩
  · exact ⟨fun e he => he, Table.mem_of_idOf hid⟩
  · exact ⟨fun e he => List.mem_append_left _ he, columns.stored,
      List.mem_append_right _ List.mem_cons_self, rfl⟩

/-- **The inserts of a batch**: each record is in the row with its key. -/
theorem of_execute {batch : List (DLQRecord δ × Columns δ (Option String))} {t t' : Table δ}
    {stored : List (DLQRecord δ)} (ht : t.Unique) (h : execute batch t = .ok (stored, t')) :
    t'.Unique ∧ (∀ e ∈ t.rows, e ∈ t'.rows)
      ∧ List.Forall₂ (fun b r => Same b.1 r ∧ StoredIn t' b.2.dedupeKey r) batch stored := by
  induction batch generalizing t stored with
  | nil =>
    cases h
    exact ⟨ht, fun e he => he, .nil⟩
  | cons b batch ih =>
    obtain ⟨⟨id, new, t₁⟩, hinsert, h⟩ := exists_of_bind_eq_ok h
    obtain ⟨⟨rest, t₂⟩, hrest, h⟩ := exists_of_bind_eq_ok h
    cases h
    obtain ⟨hkeep, row, hrow, hkey⟩ := of_insert_mem hinsert
    obtain ⟨hunique, hmore, hbatch⟩ := ih (ht.insert hinsert) hrest
    exact ⟨hunique, fun e he => hmore e (hkeep e he),
      .cons ⟨rfl, id, row, rfl, hmore _ hrow, hkey⟩ hbatch⟩

/-- The rows of a batch, one for each record. -/
theorem of_batchOf {records : List (DLQRecord δ)}
    {batch : List (DLQRecord δ × Columns δ (Option String))}
    (h : batchOf py sha256 cfg records = .ok batch) :
    List.Forall₂ (fun r b => b.1 = r ∧ recordToRow py sha256 cfg.payloadPolicy r = .ok b.2)
      records batch := by
  induction records generalizing batch with
  | nil =>
    cases h
    exact .nil
  | cons r records ih =>
    unfold batchOf at h
    rw [List.mapM_cons] at h
    obtain ⟨b, hb, h⟩ := exists_of_bind_eq_ok h
    obtain ⟨batch, hbatch, h⟩ := exists_of_bind_eq_ok h
    cases h
    obtain ⟨row, hrow, hb⟩ := exists_of_bind_eq_ok hb
    cases hb
    exact .cons ⟨rfl, hrow⟩ (ih hbatch)

/-- Two lists related to a third, element by element. -/
theorem forall₂_comp {α β γ : Type} {R : α → β → Prop} {S : β → γ → Prop} {xs : List α}
    {ys : List β} {zs : List γ} (hR : List.Forall₂ R xs ys) (hS : List.Forall₂ S ys zs) :
    List.Forall₂ (fun x z => ∃ y, R x y ∧ S y z) xs zs := by
  induction hR generalizing zs with
  | nil =>
    cases hS
    exact .nil
  | cons h _ ih =>
    cases hS with
    | cons h' hS => exact .cons ⟨_, h, h'⟩ (ih hS)

/-- The key of a row is made of the row in clear. -/
theorem exists_clearRowOf {r : DLQRecord δ} {row : Columns δ (Option String)}
    (h : recordToRow py sha256 cfg.payloadPolicy r = .ok row) :
    ∃ clear, clearRowOf py cfg r = .ok clear
      ∧ row.dedupeKey = some (dedupeKeyForRow py sha256 clear) := by
  unfold recordToRow at h
  obtain ⟨clear, hclear, h⟩ := exists_of_bind_eq_ok h
  refine ⟨clear, hclear, ?_⟩
  split at h
  next =>
    cases h
    rfl
  next =>
    split at h
    next =>
      obtain ⟨envelope, _, h⟩ := exists_of_bind_eq_ok h
      cases h
      rfl
    next =>
      cases h
      rfl

/-- **A record that was written**: but for its id it is the one that was given, and it is in the
row with its key. -/
def Written (py : Python δ) (sha256 : String → String) (cfg : PostgresDLQ) (t : Table δ)
    (r r' : DLQRecord δ) : Prop :=
  Same r r' ∧ ∃ clear, clearRowOf py cfg r = .ok clear
    ∧ StoredIn t (some (dedupeKeyForRow py sha256 clear)) r'

/-- **`_insert_many` in one transaction**: every record is written, and no row is lost. -/
theorem of_insertOnce {records stored : List (DLQRecord δ)} {t t' : Table δ} (ht : t.Unique)
    (h : insertOnce py sha256 cfg records t = .ok (stored, t')) :
    t'.Unique ∧ (∀ e ∈ t.rows, e ∈ t'.rows)
      ∧ List.Forall₂ (Written py sha256 cfg t') records stored := by
  obtain ⟨batch, hbatch, h⟩ := exists_of_bind_eq_ok h
  obtain ⟨hunique, hmore, hstored⟩ := of_execute ht h
  refine ⟨hunique, hmore, List.Forall₂.imp ?_ (forall₂_comp (of_batchOf hbatch) hstored)⟩
  rintro r r' ⟨⟨r, row⟩, ⟨rfl, hrow⟩, hsame, hin⟩
  obtain ⟨clear, hclear, hkey⟩ := exists_clearRowOf hrow
  refine ⟨hsame, clear, hclear, ?_⟩
  rw [← hkey]
  exact hin

/-- **An attempt that fails** leaves the rows as they are or adds rows, and the records but for
their ids. -/
theorem of_attempt {records records' : List (DLQRecord δ)} {t t' : Table δ} {succeeded : Bool}
    (ht : t.Unique) (h : Attempt py sha256 cfg records t succeeded records' t') :
    t'.Unique ∧ (∀ e ∈ t.rows, e ∈ t'.rows) ∧ List.Forall₂ Same records records' := by
  cases h with
  | committed h =>
    obtain ⟨hunique, hmore, hwritten⟩ := of_insertOnce ht h
    exact ⟨hunique, hmore, List.Forall₂.imp (fun r r' h => h.1) hwritten⟩
  | unconnected => exact ⟨ht, fun e he => he, List.forall₂_same.2 fun r _ => rfl⟩
  | broken hbatch n h =>
    obtain ⟨_, _, hstored⟩ := of_execute ht h
    have hfirst : List.Forall₂ Same (records.take n) _ :=
      List.Forall₂.imp (fun r r' ⟨b, hb, hsame, _⟩ => hb.1 ▸ hsame)
        (forall₂_comp (List.forall₂_take n (of_batchOf hbatch)) hstored)
    have hrest : List.Forall₂ Same (records.drop n) (records.drop n) :=
      List.forall₂_same.2 (fun r _ => rfl)
    have hboth := List.rel_append hfirst hrest
    dsimp only at hboth
    rw [List.take_append_drop] at hboth
    exact ⟨ht, fun e he => he, hboth⟩
  | unknown applied h =>
    obtain ⟨hunique, hmore, hwritten⟩ := of_insertOnce ht h
    cases applied with
    | true => exact ⟨hunique, hmore, List.Forall₂.imp (fun r r' h => h.1) hwritten⟩
    | false => exact ⟨ht, fun e he => he, List.Forall₂.imp (fun r r' h => h.1) hwritten⟩

theorem clearRowOf_of_same {r r' : DLQRecord δ} (h : Same r r') :
    clearRowOf py cfg r = clearRowOf py cfg r' := by
  show clearRowOf py cfg (fieldsOf r) = clearRowOf py cfg (fieldsOf r')
  rw [show fieldsOf r = fieldsOf r' from h]

/-- **What a call that returns has written.** -/
theorem of_returns {records stored : List (DLQRecord δ)} {t t' : Table δ} (ht : t.Unique)
    (h : Returns py sha256 cfg records t stored t') :
    t'.Unique ∧ List.Forall₂ (Written py sha256 cfg t') records stored := by
  cases h with
  | once h =>
    cases h with
    | committed h =>
      obtain ⟨hunique, _, hwritten⟩ := of_insertOnce ht h
      exact ⟨hunique, hwritten⟩
  | again hfailed hothers h =>
    cases h with
    | committed h =>
      obtain ⟨ht₁, _, hsame⟩ := of_attempt ht hfailed
      obtain ⟨hunique, _, hwritten⟩ := of_insertOnce (ht₁.changes hothers) h
      refine ⟨hunique, List.Forall₂.imp ?_ (forall₂_comp hsame hwritten)⟩
      rintro r r' ⟨r₁, hsame, hsame', clear, hclear, hin⟩
      refine ⟨hsame.trans hsame', clear, ?_, hin⟩
      rw [clearRowOf_of_same hsame]
      exact hclear

/-! ## Keys -/

/-- What the key of a row is the hash of. -/
def encodedRow (py : Python δ) (row : Columns δ (Option String)) : String :=
  dedupeKeyForRow py id row

/-- **The key of a row** is the hash of its text. -/
theorem dedupeKeyForRow_eq (row : Columns δ (Option String)) :
    dedupeKeyForRow py sha256 row = sha256 (encodedRow py row) := rfl

/-- Times are told apart by their texts. -/
theorem isoformat_inj {t t' : δ} (h : py.isoformat t = py.isoformat t') : t = t' := by
  have hok := py.fromisoformat_isoformat t
  rw [h, py.fromisoformat_isoformat] at hok
  exact (Except.ok.inj hok).symm

theorem optional_normal_inj {text text' : Option String}
    (h : (optional text).normal = (optional text').normal) : text = text' := by
  cases text <;> cases text' <;> simp_all [optional, Json.normal]

/-- **The text of a row says all of it.** -/
theorem encodedRow_inj {row row' : Columns δ (Option String)}
    (hkey : row.dedupeKey = row'.dedupeKey) (h : encodedRow py row = encodedRow py row') :
    row = row' := by
  have hnormal := Json.dumps_eq_dumps_iff.1 h
  simp only [Json.normal, Json.normalMembers, Json.obj.injEq, List.cons.injEq, Prod.mk.injEq,
    true_and, and_true] at hnormal
  obtain ⟨hattempt, hcheckpoint, hcreated, hdetails, hmessage, htype, hmax, hmiddleware, horiginal,
    hpipeline, hprocessed, hrecord, hrun, hsink, hsource, hstage⟩ := hnormal
  have hmaxAttempts : row.maxAttempts = row'.maxAttempts := by
    cases hn : row.maxAttempts <;> cases hn' : row'.maxAttempts <;>
      simp_all [Json.normal]
  cases row
  cases row'
  simp only [Columns.mk.injEq]
  exact ⟨Json.str.inj hpipeline, Json.str.inj hrun, Json.str.inj hstage, Json.str.inj htype,
    Json.str.inj hmessage, optional_normal_inj hrecord, optional_normal_inj horiginal,
    optional_normal_inj hprocessed, hkey, optional_normal_inj hsource,
    optional_normal_inj hcheckpoint, optional_normal_inj hdetails, optional_normal_inj hmiddleware,
    optional_normal_inj hsink, isoformat_inj (Json.str.inj hcreated), Json.num.inj hattempt,
    hmaxAttempts⟩

/-- The row that is hashed has no key yet. -/
theorem dedupeKey_of_clearRowOf {r : DLQRecord δ} {clear : Columns δ (Option String)}
    (h : clearRowOf py cfg r = .ok clear) : clear.dedupeKey = none := by
  unfold clearRowOf payloadToRow at h
  obtain ⟨pipelineId, _, h⟩ := exists_of_bind_eq_ok h
  obtain ⟨runId, _, h⟩ := exists_of_bind_eq_ok h
  obtain ⟨stage, _, h⟩ := exists_of_bind_eq_ok h
  obtain ⟨errorType, _, h⟩ := exists_of_bind_eq_ok h
  obtain ⟨errorMessage, _, h⟩ := exists_of_bind_eq_ok h
  obtain ⟨created, _, h⟩ := exists_of_bind_eq_ok h
  obtain ⟨t, _, h⟩ := exists_of_bind_eq_ok h
  obtain ⟨n, _, h⟩ := exists_of_bind_eq_ok h
  obtain ⟨m, _, h⟩ := exists_of_bind_eq_ok h
  cases h
  rfl

/-- Where nothing is redacted it is made of the record as it is. -/
theorem clearRowOf_eq (hmode : ∀ p ∈ cfg.payloadPolicy, p.mode ≠ .redacted) (r : DLQRecord δ) :
    clearRowOf py cfg r = .ok (clearRow py r) := by
  unfold clearRowOf
  rw [applied_eq hmode, payloadToRow_recordToPayload]

/-- **A row in clear has everything**, of a record with JSON values and a time with a zone. -/
theorem clearRow_eq_iff {r r' : DLQRecord δ} (hjson : r.HasJson) (hjson' : r'.HasJson)
    (hzone : py.withTimezone r.createdAt = r.createdAt)
    (hzone' : py.withTimezone r'.createdAt = r'.createdAt) :
    clearRow py r = clearRow py r' ↔ Same r r' := by
  have hvalue : ∀ {v w : Json}, serializeJson v = serializeJson w → v.normal = v → w.normal = w →
      v = w := by
    intro v w h hv hw
    rw [← hv, ← hw, ← jsonb_serializeJson, h, jsonb_serializeJson]
  constructor
  · intro h
    obtain ⟨h₁, h₂, h₃, h₄, h₅⟩ := DLQRecord.forall_values.1 hjson.normal
    obtain ⟨h₁', h₂', h₃', h₄', h₅'⟩ := DLQRecord.forall_values.1 hjson'.normal
    simp only [clearRow, Columns.mk.injEq, hzone, hzone'] at h
    obtain ⟨hpipeline, hrun, hstage, htype, hmessage, hrecord, horiginal, hprocessed, _, hsource,
      hcheckpoint, hdetails, hmiddleware, hsink, hcreated, hattempt, hmax⟩ := h
    unfold Same fieldsOf
    simp only [DLQRecord.mk.injEq]
    exact ⟨hpipeline, hrun, hstage, htype, hmessage, hvalue hrecord h₁ h₁', hvalue horiginal h₂ h₂',
      hvalue hprocessed h₃ h₃', hsource, hvalue hcheckpoint h₄ h₄', hvalue hdetails h₅ h₅',
      hmiddleware, hsink, hcreated, hattempt, hmax, trivial⟩
  · intro h
    show clearRow py (fieldsOf r) = clearRow py (fieldsOf r')
    rw [show fieldsOf r = fieldsOf r' from h]

/-- The row with its key has the record's id. -/
def InRow (py : Python δ) (sha256 : String → String) (cfg : PostgresDLQ) (t : Table δ)
    (r : DLQRecord δ) : Prop :=
  ∃ clear, clearRowOf py cfg r = .ok clear
    ∧ StoredIn t (some (dedupeKeyForRow py sha256 clear)) r

theorem InRow.mono {t t' : Table δ} {r : DLQRecord δ} (h : InRow py sha256 cfg t r)
    (hrows : ∀ e ∈ t.rows, e ∈ t'.rows) : InRow py sha256 cfg t' r := by
  obtain ⟨clear, hclear, hin⟩ := h
  exact ⟨clear, hclear, hin.mono hrows⟩

/-- What was written is in its row. -/
theorem inRow_of_written {records stored : List (DLQRecord δ)} {t : Table δ}
    (h : List.Forall₂ (Written py sha256 cfg t) records stored) :
    ∀ r' ∈ stored, InRow py sha256 cfg t r' := by
  induction h with
  | nil => exact nofun
  | cons h _ ih =>
    obtain ⟨hsame, clear, hclear, hin⟩ := h
    rw [clearRowOf_of_same hsame] at hclear
    exact List.forall_mem_cons.2 ⟨⟨clear, hclear, hin⟩, ih⟩

/-- The hash tells two rows in clear apart, if they are not one. -/
def Distinguishes (py : Python δ) (sha256 : String → String)
    (clear clear' : Columns δ (Option String)) : Prop :=
  sha256 (encodedRow py clear) = sha256 (encodedRow py clear') →
    encodedRow py clear = encodedRow py clear'

/-- Rows in clear with one key are one row. -/
theorem eq_of_dedupeKey_eq {clear clear' : Columns δ (Option String)}
    (hnone : clear.dedupeKey = none) (hnone' : clear'.dedupeKey = none)
    (hsha : Distinguishes py sha256 clear clear')
    (h : dedupeKeyForRow py sha256 clear = dedupeKeyForRow py sha256 clear') : clear = clear' := by
  rw [dedupeKeyForRow_eq, dedupeKeyForRow_eq] at h
  exact encodedRow_inj (hnone.trans hnone'.symm) (hsha h)

/-- **Two records are in one row just if their rows in clear are one.** -/
theorem id_eq_iff {t : Table δ} (ht : t.Unique) {r r' : DLQRecord δ}
    {clear clear' : Columns δ (Option String)} {id id' : ℕ} {row row' : Columns δ Json}
    (hclear : clearRowOf py cfg r = .ok clear) (hclear' : clearRowOf py cfg r' = .ok clear')
    (hrow : (id, row) ∈ t.rows) (hrow' : (id', row') ∈ t.rows)
    (hkey : row.dedupeKey = some (dedupeKeyForRow py sha256 clear))
    (hkey' : row'.dedupeKey = some (dedupeKeyForRow py sha256 clear'))
    (hsha : Distinguishes py sha256 clear clear') : id = id' ↔ clear = clear' := by
  constructor
  · rintro rfl
    have hrows : row = row' := Option.some.inj ((ht.row_eq hrow).symm.trans (ht.row_eq hrow'))
    rw [hrows, hkey'] at hkey
    exact eq_of_dedupeKey_eq (dedupeKey_of_clearRowOf hclear) (dedupeKey_of_clearRowOf hclear')
      hsha (Option.some.inj hkey).symm
  · rintro rfl
    have hfilter := (ht.filter_key hrow hkey).symm.trans (ht.filter_key hrow' hkey')
    exact congrArg Prod.fst (List.cons.inj hfilter).1

/-! ## Rows that hold records -/

/-- **A row in clear says what the payload says.** -/
structure Shows (py : Python δ) (payload : Payload) (row : Columns δ (Option String)) : Prop where
  pipelineId : row.pipelineId = str py (payload.value "pipeline_id")
  runId : row.runId = str py (payload.value "run_id")
  stage : row.stage = str py (payload.value "stage")
  errorType : row.errorType = str py (payload.value "error_type")
  errorMessage : row.errorMessage = str py (payload.value "error_message")
  record : row.record = serializeJson (payload.value "record")
  originalRecord : row.originalRecord = serializeJson (payload.value "original_record")
  processedRecord : row.processedRecord = serializeJson (payload.value "processed_record")
  source : row.source = optionalStr py (payload.value "source")
  checkpoint : row.checkpoint = serializeJson (payload.value "checkpoint")
  details : row.details = serializeJson (payload.value "details")
  middleware : row.middleware = optionalStr py (payload.value "middleware")
  sink : row.sink = optionalStr py (payload.value "sink")
  createdAt : coerceDatetime py (payload.value "created_at") = .ok row.createdAt
  attempt : int py ((Json.find "attempt" payload).getD (.num 0)) = .ok row.attempt
  maxAttempts : optionalInt py (payload.value "max_attempts") = .ok row.maxAttempts

/-- A member that is there has its value. -/
theorem value_of_item {payload : Payload} {key : String} {v : Json}
    (h : payload.item key = .ok v) : payload.value key = v := by
  unfold Payload.item at h
  unfold Payload.value
  split at h
  next hfind =>
    cases h
    rw [hfind]
    rfl
  next => cases h

/-- **`payload_to_row` says what the payload says.** -/
theorem shows_of_payloadToRow {payload : Payload} {row : Columns δ (Option String)}
    (h : payloadToRow py payload = .ok row) : Shows py payload row := by
  unfold payloadToRow at h
  obtain ⟨pipelineId, hpipeline, h⟩ := exists_of_bind_eq_ok h
  obtain ⟨runId, hrun, h⟩ := exists_of_bind_eq_ok h
  obtain ⟨stage, hstage, h⟩ := exists_of_bind_eq_ok h
  obtain ⟨errorType, htype, h⟩ := exists_of_bind_eq_ok h
  obtain ⟨errorMessage, hmessage, h⟩ := exists_of_bind_eq_ok h
  obtain ⟨created, hcreated, h⟩ := exists_of_bind_eq_ok h
  obtain ⟨t, ht, h⟩ := exists_of_bind_eq_ok h
  obtain ⟨n, hn, h⟩ := exists_of_bind_eq_ok h
  obtain ⟨m, hm, h⟩ := exists_of_bind_eq_ok h
  cases h
  constructor
  case pipelineId => rw [value_of_item hpipeline]
  case runId => rw [value_of_item hrun]
  case stage => rw [value_of_item hstage]
  case errorType => rw [value_of_item htype]
  case errorMessage => rw [value_of_item hmessage]
  case createdAt =>
    rw [value_of_item hcreated]
    exact ht
  case attempt => exact hn
  case maxAttempts => exact hm
  all_goals rfl

/-- **The row that holds a row in clear**: its columns, or the envelope of a record that has
them. The attempts are those of the last replay. -/
def Holds (py : Python δ) (sha256 : String → String) (clear : Columns δ (Option String))
    (row : Columns δ Json) : Prop :=
  clear.dedupeKey = none ∧ ∃ n : ℤ,
    row = { clear.stored with
      dedupeKey := some (dedupeKeyForRow py sha256 clear)
      attempt := n }
    ∨ ∃ (policy : DLQPayloadPolicy) (r : DLQRecord δ), clear = clearRow py r
      ∧ row = { clear.stored with
        record := .obj (policy.envelope
          (policy.cipher.encrypt (Json.dumps (.obj (recordToPayload py r)))))
        originalRecord := .null
        processedRecord := .null
        checkpoint := .null
        details := .null
        dedupeKey := some (dedupeKeyForRow py sha256 clear)
        attempt := n }

/-- **The key of a row that holds a record** is that of the record. -/
theorem Holds.dedupeKey {clear : Columns δ (Option String)} {row : Columns δ Json}
    (h : Holds py sha256 clear row) :
    row.dedupeKey = some (dedupeKeyForRow py sha256 clear) := by
  obtain ⟨_, n, rfl | ⟨policy, r, _, rfl⟩⟩ := h
  · rfl
  · rfl

/-- A replay counts attempts and nothing else. -/
theorem Holds.withAttempt {clear : Columns δ (Option String)} {row : Columns δ Json}
    (h : Holds py sha256 clear row) (n : ℤ) :
    Holds py sha256 clear { row with attempt := n } := by
  obtain ⟨hnone, _, rfl | ⟨policy, r, hr, rfl⟩⟩ := h
  · exact ⟨hnone, n, .inl rfl⟩
  · exact ⟨hnone, n, .inr ⟨policy, r, hr, rfl⟩⟩

/-- **What a sink sends holds its row in clear.** -/
theorem holds_of_sinkRow {columns : Columns δ (Option String)} (h : SinkRow py sha256 columns) :
    ∃ clear, Holds py sha256 clear columns.stored := by
  obtain ⟨policy, r, h⟩ := h
  have hsent := h
  unfold recordToRow at h
  obtain ⟨clear, hclear, h⟩ := exists_of_bind_eq_ok h
  have hnone : clear.dedupeKey = none := @dedupeKey_of_clearRowOf δ py ⟨policy⟩ r clear hclear
  refine ⟨clear, hnone, clear.attempt, ?_⟩
  cases policy with
  | none =>
    cases h
    exact .inl rfl
  | some policy =>
    dsimp only at h
    split at h
    next hmode =>
      have hraw : ∀ p ∈ some policy, p.mode ≠ .redacted := by
        rintro p ⟨⟩ hp
        rw [hmode] at hp
        cases hp
      have hrow := (record_of_recordToRow hmode hsent).1
      rw [applied_eq hraw, payloadToRow_recordToPayload] at hclear
      obtain ⟨envelope, _, h⟩ := exists_of_bind_eq_ok h
      cases h
      refine .inr ⟨policy, r, (Except.ok.inj hclear).symm, ?_⟩
      rw [← hrow]
      rfl
    next =>
      cases h
      exact .inl rfl

/-- Every row holds a row in clear. -/
def AllHold (py : Python δ) (sha256 : String → String) (t : Table δ) : Prop :=
  ∀ e ∈ t.rows, ∃ clear, Holds py sha256 clear e.2

/-- A row that is inserted holds what was sent. -/
theorem AllHold.insert {t t' : Table δ} (ht : AllHold py sha256 t)
    {columns : Columns δ (Option String)} (hsent : SinkRow py sha256 columns) {id : ℕ} {new : Bool}
    (h : t.insert columns = .ok (id, new, t')) : AllHold py sha256 t' := by
  rcases Table.of_insert h with ⟨_, rfl⟩ | ⟨_, _, rfl⟩
  · exact ht
  · intro e he
    rcases List.mem_append.1 he with he | he
    · exact ht e he
    · rw [List.mem_singleton.1 he]
      exact holds_of_sinkRow hsent

/-- **So does every row** after a change of the table. -/
theorem AllHold.change {t t' : Table δ} (ht : AllHold py sha256 t)
    (h : Table.Change (SinkRow py sha256) t t') : AllHold py sha256 t' := by
  cases h with
  | insert hsent h => exact ht.insert hsent h
  | setAttempt h =>
    unfold Table.setAttempt at h
    split at h
    next =>
      cases h
      intro e he
      obtain ⟨e₀, he₀, rfl⟩ := List.mem_map.1 he
      obtain ⟨clear, hclear⟩ := ht e₀ he₀
      split
      · exact ⟨clear, hclear.withAttempt _⟩
      · exact ⟨clear, hclear⟩
    next => cases h
  | delete id => exact fun e he => ht e (List.mem_of_mem_filter he)

/-- **Every row of a reachable table holds a row in clear.** -/
theorem AllHold.changes {t t' : Table δ} (ht : AllHold py sha256 t)
    (h : Relation.ReflTransGen (Table.Change (SinkRow py sha256)) t t') :
    AllHold py sha256 t' := by
  induction h with
  | refl => exact ht
  | tail _ h ih => exact ih.change h

theorem AllHold.execute {batch : List (DLQRecord δ × Columns δ (Option String))}
    {stored : List (DLQRecord δ)} {t t' : Table δ} (ht : AllHold py sha256 t)
    (hsent : ∀ b ∈ batch, SinkRow py sha256 b.2) (h : execute batch t = .ok (stored, t')) :
    AllHold py sha256 t' := by
  induction batch generalizing t stored with
  | nil =>
    cases h
    exact ht
  | cons b batch ih =>
    obtain ⟨hb, hbatch⟩ := List.forall_mem_cons.1 hsent
    obtain ⟨⟨id, new, t₁⟩, hinsert, h⟩ := exists_of_bind_eq_ok h
    obtain ⟨⟨rest, t₂⟩, hrest, h⟩ := exists_of_bind_eq_ok h
    cases h
    exact ih (ht.insert hb hinsert) hbatch hrest

/-- A batch is made of rows of the sink. -/
theorem sinkRow_of_batchOf {records : List (DLQRecord δ)}
    {batch : List (DLQRecord δ × Columns δ (Option String))}
    (h : batchOf py sha256 cfg records = .ok batch) : ∀ b ∈ batch, SinkRow py sha256 b.2 := by
  have hrows := of_batchOf h
  clear h
  induction hrows with
  | nil => exact fun b hb => absurd hb List.not_mem_nil
  | cons hb _ ih => exact List.forall_mem_cons.2 ⟨⟨cfg.payloadPolicy, _, hb.2⟩, ih⟩

/-- So every row holds a record after `_insert_many`. -/
theorem AllHold.insertOnce {records stored : List (DLQRecord δ)} {t t' : Table δ}
    (ht : AllHold py sha256 t) (h : insertOnce py sha256 cfg records t = .ok (stored, t')) :
    AllHold py sha256 t' := by
  obtain ⟨batch, hbatch, h⟩ := exists_of_bind_eq_ok h
  exact ht.execute (sinkRow_of_batchOf hbatch) h

/-- **Every row still holds one** after a call that returns. -/
theorem AllHold.returns {records stored : List (DLQRecord δ)} {t t' : Table δ}
    (ht : AllHold py sha256 t) (h : Returns py sha256 cfg records t stored t') :
    AllHold py sha256 t' := by
  cases h with
  | once h =>
    cases h with
    | committed h => exact ht.insertOnce h
  | @again _ _ t₁ _ _ hfailed hothers h =>
    have hfirst : AllHold py sha256 t₁ := by
      cases hfailed with
      | unconnected => exact ht
      | broken _ n _ => exact ht
      | unknown applied h =>
        cases applied with
        | true => exact ht.insertOnce h
        | false => exact ht
    cases h with
    | committed h => exact (hfirst.changes hothers).insertOnce h

/-! ## Two records -/

theorem insertOnce_singleton {r : DLQRecord δ} {row : Columns δ (Option String)} {t t' : Table δ}
    {id : ℕ} {new : Bool} (hrow : recordToRow py sha256 cfg.payloadPolicy r = .ok row)
    (hinsert : t.insert row = .ok (id, new, t')) :
    insertOnce py sha256 cfg [r] t = .ok ([{ r with storageId := some (.row id) }], t') := by
  unfold insertOnce batchOf
  rw [List.mapM_cons, hrow]
  show execute [(r, row)] t = _
  unfold execute
  rw [hinsert]
  rfl

/-- The first row, and then the others. -/
theorem execute_cons {r : DLQRecord δ} {row : Columns δ (Option String)} {t t₁ t' : Table δ} {k : ℕ}
    {new : Bool} {batch : List (DLQRecord δ × Columns δ (Option String))}
    {stored : List (DLQRecord δ)} (hinsert : t.insert row = .ok (k, new, t₁))
    (h : execute batch t₁ = .ok (stored, t')) :
    execute ((r, row) :: batch) t = .ok ({ r with storageId := some (.row k) } :: stored, t') := by
  rw [execute, hinsert]
  show (execute batch t₁ >>= _) = _
  rw [h]
  rfl

theorem insertOnce_pair {r r' : DLQRecord δ} {row row' : Columns δ (Option String)}
    {t t₁ t₂ : Table δ} {k k' : ℕ} {new new' : Bool}
    (hrow : recordToRow py sha256 cfg.payloadPolicy r = .ok row)
    (hrow' : recordToRow py sha256 cfg.payloadPolicy r' = .ok row')
    (hinsert : t.insert row = .ok (k, new, t₁)) (hinsert' : t₁.insert row' = .ok (k', new', t₂)) :
    insertOnce py sha256 cfg [r, r'] t = .ok
      ([{ r with storageId := some (.row k) }, { r' with storageId := some (.row k') }], t₂) := by
  have hbatch : batchOf py sha256 cfg [r, r'] = .ok [(r, row), (r', row')] := by
    unfold batchOf
    rw [List.mapM_cons, List.mapM_cons, hrow, hrow']
    rfl
  unfold insertOnce
  rw [hbatch]
  exact execute_cons hinsert (execute_cons hinsert' rfl)

/-- A record of another run. -/
def otherRun : DLQRecord String := { digits with runId := "other" }

theorem not_same_otherRun {sid sid' : Option StorageId} :
    ¬ Same { digits with storageId := sid } { otherRun with storageId := sid' } := by
  intro h
  have hrun : "run" = "other" := congrArg DLQRecord.runId h
  revert hrun
  decide

/-- The row of a record in clear, with the text that is hashed as its key. -/
def keyedRow (r : DLQRecord String) : Columns String (Option String) :=
  { clearRow .ofTexts r with dedupeKey := some (encodedRow .ofTexts (clearRow .ofTexts r)) }

/-- Without a policy nothing is redacted. -/
theorem not_redacted_none : ∀ p ∈ (none : Option DLQPayloadPolicy), p.mode ≠ .redacted :=
  fun p hp => absurd hp (Option.not_mem_none p)

/-- The row of a record, with its text for a key. -/
theorem recordToRow_keyedRow (r : DLQRecord String) :
    recordToRow .ofTexts id none r = .ok (keyedRow r) :=
  recordToRow_eq not_redacted_none r

theorem key_otherRun_ne :
    encodedRow .ofTexts (clearRow .ofTexts digits)
      ≠ encodedRow .ofTexts (clearRow .ofTexts otherRun) := by
  intro h
  have hrow := @encodedRow_inj String .ofTexts (clearRow .ofTexts digits)
    (clearRow .ofTexts otherRun) rfl h
  have hrun : "run" = "other" := congrArg Columns.runId hrow
  revert hrun
  decide

/-- The table with a row for each of the two. -/
def twoRows : Table String := (Table.empty.append (keyedRow digits)).append (keyedRow otherRun)

theorem insert_digits :
    Table.empty.insert (keyedRow digits) = .ok (1, true, Table.empty.append (keyedRow digits)) :=
  Table.insert_of_forall_ne (by decide) (by decide) rfl nofun

theorem insert_otherRun : (Table.empty.append (keyedRow digits)).insert (keyedRow otherRun)
    = .ok (2, true, twoRows) := by
  refine Table.insert_of_forall_ne (by decide) (by decide) rfl (fun e he hkey => ?_)
  rw [List.mem_singleton.1 he] at hkey
  exact key_otherRun_ne (Option.some.inj hkey)

theorem unique_twoRows : twoRows.Unique :=
  (Table.unique_empty.insert insert_digits).insert insert_otherRun

/-! ## A call that returns -/

/-- **A record is stored once**: there is one row with its key, whose id it has, and, if the hash
tells apart what it was made of, that row holds the record. -/
def StoredOnce (py : Python δ) (sha256 : String → String) (cfg : PostgresDLQ) (t : Table δ)
    (r r' : DLQRecord δ) : Prop :=
  ∃ clear id row, clearRowOf py cfg r = .ok clear
    ∧ Shows py (applied py cfg.payloadPolicy r) clear
    ∧ ((∀ p ∈ cfg.payloadPolicy, p.mode ≠ .redacted) → clear = clearRow py r)
    ∧ r' = { r with storageId := some (.row id) }
    ∧ t.rows.filter (fun e => e.2.dedupeKey = some (dedupeKeyForRow py sha256 clear)) = [(id, row)]
    ∧ t.row id = some row
    ∧ ∃ held, Holds py sha256 held row ∧ (Distinguishes py sha256 held clear → held = clear)

/-- **Exactly once under a reconnect.** After a call that returns, whatever became of its first
attempt and whatever others did meanwhile, each record of the batch is stored once, and two of them
have one row just if their rows in clear are one: without redaction, if they are the same record. -/
theorem stored_once {records stored : List (DLQRecord δ)} {t t' : Table δ}
    (ht : t.Reachable (SinkRow py sha256)) (h : Returns py sha256 cfg records t stored t') :
    List.Forall₂ (StoredOnce py sha256 cfg t') records stored
      ∧ ∀ r ∈ stored, ∀ r' ∈ stored, ∀ clear clear', clearRowOf py cfg r = .ok clear →
        clearRowOf py cfg r' = .ok clear' → Distinguishes py sha256 clear clear' →
        (r.storageId = r'.storageId ↔ clear = clear')
          ∧ ((∀ p ∈ cfg.payloadPolicy, p.mode ≠ .redacted) → r.HasJson → r'.HasJson →
            py.withTimezone r.createdAt = r.createdAt →
            py.withTimezone r'.createdAt = r'.createdAt →
            (r.storageId = r'.storageId ↔ Same r r')) := by
  obtain ⟨hunique, hwritten⟩ := of_returns ht.unique h
  have hhold : AllHold py sha256 t' :=
    (AllHold.changes (t := Table.empty) nofun ht).returns h
  refine ⟨List.Forall₂.imp ?_ hwritten, ?_⟩
  · rintro r r' ⟨hsame, clear, hclear, id, row, hid, hrow, hkey⟩
    refine ⟨clear, id, row, hclear, shows_of_payloadToRow hclear, fun hmode => ?_, ?_,
      hunique.filter_key hrow hkey, hunique.row_eq hrow, ?_⟩
    · rw [clearRowOf_eq hmode] at hclear
      exact (Except.ok.inj hclear).symm
    · rw [← hid]
      exact congrArg (fun s : DLQRecord δ => { s with storageId := r'.storageId }) hsame.symm
    · obtain ⟨held, hheld⟩ := hhold _ hrow
      refine ⟨held, hheld, fun hsha => ?_⟩
      exact eq_of_dedupeKey_eq hheld.1 (dedupeKey_of_clearRowOf hclear) hsha
        (Option.some.inj (hheld.dedupeKey.symm.trans hkey))
  · intro r hr r' hr' clear clear' hclear hclear' hsha
    obtain ⟨_, hclear₁, id, row, hid, hrow, hkey⟩ := inRow_of_written hwritten r hr
    obtain ⟨_, hclear₁', id', row', hid', hrow', hkey'⟩ := inRow_of_written hwritten r' hr'
    rw [hclear, Except.ok.injEq] at hclear₁
    rw [hclear', Except.ok.injEq] at hclear₁'
    subst hclear₁ hclear₁'
    have hiff : r.storageId = r'.storageId ↔ clear = clear' := by
      rw [hid, hid', Option.some.injEq, StorageId.row.injEq]
      exact id_eq_iff hunique hclear hclear' hrow hrow' hkey hkey' hsha
    refine ⟨hiff, fun hmode hjson hjson' hzone hzone' => ?_⟩
    rw [clearRowOf_eq hmode, Except.ok.injEq] at hclear hclear'
    rw [hiff, ← hclear, ← hclear']
    exact clearRow_eq_iff hjson hjson' hzone hzone'

/-- Two records that are written by one call, whose first attempt was committed without an answer:
the second attempt finds the rows. -/
theorem stored_once_otherRun : ∃ r r' t',
    Returns .ofTexts id ⟨none⟩ [digits, otherRun] .empty [r, r'] t'
      ∧ StoredOnce .ofTexts id ⟨none⟩ t' digits r ∧ StoredOnce .ofTexts id ⟨none⟩ t' otherRun r'
      ∧ r.storageId ≠ r'.storageId := by
  let r : DLQRecord String := { digits with storageId := some (.row 1) }
  let r' : DLQRecord String := { otherRun with storageId := some (.row 2) }
  have hfirst : insertOnce .ofTexts id ⟨none⟩ [digits, otherRun] .empty = .ok ([r, r'], twoRows) :=
    insertOnce_pair (recordToRow_keyedRow digits) (recordToRow_keyedRow otherRun) insert_digits
      insert_otherRun
  have hsecond : insertOnce .ofTexts id ⟨none⟩ [r, r'] twoRows
      = .ok ([r, r'], twoRows.skipId.skipId) :=
    insertOnce_pair (recordToRow_keyedRow digits) (recordToRow_keyedRow otherRun)
      (unique_twoRows.insert_of_mem (by decide) (by decide) rfl List.mem_cons_self rfl)
      (Table.Unique.insert_of_mem (t := twoRows.skipId) unique_twoRows (by decide) (by decide) rfl
        (List.mem_cons_of_mem _ List.mem_cons_self) rfl)
  have hreturns : Returns .ofTexts id ⟨none⟩ [digits, otherRun] .empty [r, r'] _ :=
    .again (.unknown true hfirst) .refl (.committed hsecond)
  obtain ⟨hstored, hapart⟩ := stored_once .refl hreturns
  refine ⟨r, r', _, hreturns, (List.forall₂_cons.1 hstored).1,
    (List.forall₂_cons.1 (List.forall₂_cons.1 hstored).2).1, fun hid => ?_⟩
  have happly := hapart r List.mem_cons_self r' (List.mem_cons_of_mem _ List.mem_cons_self) _ _
    (clearRowOf_eq not_redacted_none r) (clearRowOf_eq not_redacted_none r') id
  exact not_same_otherRun
    ((happly.2 not_redacted_none hasJson_digits hasJson_digits rfl rfl).1 hid)

/-! ## Many writes -/

/-- A table, and the records that were written to it. -/
structure Log (δ : Type) where
  table : Table δ
  written : List (DLQRecord δ)

/-- **A step of a sequence of calls**: an attempt that succeeds, or one that fails. A call is one
attempt, or a failed one and another. -/
inductive Step (py : Python δ) (sha256 : String → String) (cfg : PostgresDLQ) :
    Log δ → Log δ → Prop
  | written {s : Log δ} {records stored : List (DLQRecord δ)} {t' : Table δ}
      (h : Attempt py sha256 cfg records s.table true stored t') :
      Step py sha256 cfg s ⟨t', s.written ++ stored⟩
  | failed {s : Log δ} {records records' : List (DLQRecord δ)} {t' : Table δ}
      (h : Attempt py sha256 cfg records s.table false records' t') :
      Step py sha256 cfg s ⟨t', s.written⟩

/-- **One step** keeps ids and keys unique, and every written record in its row. -/
theorem inRow_step {s s' : Log δ} (ht : s.table.Unique)
    (hwritten : ∀ r ∈ s.written, InRow py sha256 cfg s.table r) (h : Step py sha256 cfg s s') :
    s'.table.Unique ∧ ∀ r ∈ s'.written, InRow py sha256 cfg s'.table r := by
  cases h with
  | written h =>
    cases h with
    | committed h =>
      obtain ⟨hunique, hmore, hstored⟩ := of_insertOnce ht h
      refine ⟨hunique, fun r' hr' => ?_⟩
      rcases List.mem_append.1 hr' with hr' | hr'
      · exact (hwritten r' hr').mono hmore
      · exact inRow_of_written hstored r' hr'
  | failed h =>
    obtain ⟨hunique, hmore, _⟩ := of_attempt ht h
    exact ⟨hunique, fun r hr => (hwritten r hr).mono hmore⟩

/-- **A run** keeps them as well. -/
theorem inRow_run {s s' : Log δ} (ht : s.table.Unique)
    (hwritten : ∀ r ∈ s.written, InRow py sha256 cfg s.table r)
    (h : Relation.ReflTransGen (Step py sha256 cfg) s s') :
    s'.table.Unique ∧ ∀ r ∈ s'.written, InRow py sha256 cfg s'.table r := by
  induction h with
  | refl => exact ⟨ht, hwritten⟩
  | tail _ hstep ih => exact inRow_step ih.1 ih.2 hstep

/-- **Which records share a row**: those whose rows in clear are the same after the policy. Where
nothing is redacted, these are the records that are the same but for their ids, if their values
are JSON values and their times have a zone. -/
theorem same_row_iff {Sent : Columns δ (Option String) → Prop} {t : Table δ}
    (ht : t.Reachable Sent) {s : Log δ}
    (hrun : Relation.ReflTransGen (Step py sha256 cfg) ⟨t, []⟩ s) {r r' : DLQRecord δ}
    (hr : r ∈ s.written) (hr' : r' ∈ s.written) :
    ∃ clear clear' id id' row row', clearRowOf py cfg r = .ok clear
      ∧ clearRowOf py cfg r' = .ok clear'
      ∧ r.storageId = some (.row id) ∧ r'.storageId = some (.row id')
      ∧ s.table.rows.filter (fun e => e.2.dedupeKey = some (dedupeKeyForRow py sha256 clear))
        = [(id, row)]
      ∧ s.table.rows.filter (fun e => e.2.dedupeKey = some (dedupeKeyForRow py sha256 clear'))
        = [(id', row')]
      ∧ ((sha256 (encodedRow py clear) = sha256 (encodedRow py clear') →
          encodedRow py clear = encodedRow py clear') →
        (id = id' ↔ clear = clear')
          ∧ ((∀ p ∈ cfg.payloadPolicy, p.mode ≠ .redacted) → r.HasJson → r'.HasJson →
            py.withTimezone r.createdAt = r.createdAt →
            py.withTimezone r'.createdAt = r'.createdAt → (id = id' ↔ Same r r'))) := by
  have hempty : ∀ r ∈ ([] : List (DLQRecord δ)), InRow py sha256 cfg t r :=
    fun r hr => absurd hr List.not_mem_nil
  obtain ⟨hunique, hin⟩ := inRow_run ht.unique hempty hrun
  obtain ⟨clear, hclear, id, row, hid, hrow, hkey⟩ := hin r hr
  obtain ⟨clear', hclear', id', row', hid', hrow', hkey'⟩ := hin r' hr'
  have hfilter := hunique.filter_key hrow hkey
  have hfilter' := hunique.filter_key hrow' hkey'
  refine ⟨clear, clear', id, id', row, row', hclear, hclear', hid, hid', hfilter, hfilter',
    fun hsha => ?_⟩
  have hiff := id_eq_iff hunique hclear hclear' hrow hrow' hkey hkey' hsha
  refine ⟨hiff, fun hmode hjson hjson' hzone hzone' => ?_⟩
  rw [clearRowOf_eq hmode, Except.ok.injEq] at hclear hclear'
  rw [hiff, ← hclear, ← hclear']
  exact clearRow_eq_iff hjson hjson' hzone hzone'

/-- **Two records, two rows.** -/
theorem same_row_otherRun : ∃ s : Log String, ∃ r ∈ s.written, ∃ r' ∈ s.written, ∃ k k',
    Relation.ReflTransGen (Step .ofTexts id ⟨none⟩) ⟨.empty, []⟩ s
      ∧ r.storageId = some (.row k) ∧ r'.storageId = some (.row k') ∧ k ≠ k' := by
  have hrun : Relation.ReflTransGen (Step .ofTexts id ⟨none⟩) ⟨.empty, []⟩
      ⟨twoRows, [{ digits with storageId := some (.row 1) },
        { otherRun with storageId := some (.row 2) }]⟩ :=
    .tail (.single (.written (.committed
        (insertOnce_singleton (recordToRow_keyedRow digits) insert_digits))))
      (.written (.committed (insertOnce_singleton (recordToRow_keyedRow otherRun) insert_otherRun)))
  have hempty : (Table.empty : Table String).Reachable (fun _ => True) := .refl
  obtain ⟨clear, clear', k, k', _, _, _, _, hk, hk', _, _, hapart⟩ :=
    same_row_iff hempty hrun List.mem_cons_self
      (List.mem_cons_of_mem _ List.mem_cons_self)
  refine ⟨_, _, List.mem_cons_self, _, List.mem_cons_of_mem _ List.mem_cons_self, k, k', hrun,
    hk, hk', fun hkk => ?_⟩
  have hsame := ((hapart id).2 not_redacted_none hasJson_digits hasJson_digits rfl rfl).1 hkk
  exact not_same_otherRun hsame

/-! ## A row that two records share -/

/-- Where two records have one row, both are written to it. -/
theorem run_of_row_eq {r r' : DLQRecord δ} {row : Columns δ (Option String)} {key : String}
    (hkey : row.dedupeKey = some key) (hattempt : IsInteger row.attempt)
    (hmax : ∀ n ∈ row.maxAttempts, IsInteger n)
    (hrow : recordToRow py sha256 cfg.payloadPolicy r = .ok row)
    (hrow' : recordToRow py sha256 cfg.payloadPolicy r' = .ok row) :
    Relation.ReflTransGen (Step py sha256 cfg) ⟨.empty, []⟩
      ⟨(Table.empty.append row).skipId,
        [{ r with storageId := some (.row 1) }, { r' with storageId := some (.row 1) }]⟩ := by
  have hfirst : Table.empty.insert row = .ok (1, true, Table.empty.append row) :=
    Table.insert_of_forall_ne hattempt hmax hkey nofun
  have hunique : (Table.empty.append row).Unique := Table.unique_empty.insert hfirst
  have hsecond : (Table.empty.append row).insert row
      = .ok (1, false, (Table.empty.append row).skipId) :=
    hunique.insert_of_mem hattempt hmax hkey List.mem_cons_self hkey
  exact .tail (.single (.written (.committed (insertOnce_singleton hrow hfirst))))
    (.written (.committed (insertOnce_singleton hrow' hsecond)))

/-- A record with a password in its value. -/
def withPassword (password : String) : DLQRecord String :=
  { digits with record := .obj [("password", .str password)] }

/-- The common redacting policy. -/
def redacting : DLQPayloadPolicy where
  mode := .redacted
  cipher := .reverse

/-- Only the password is redacted. -/
theorem applied_withPassword (password : String) :
    applied .singleQuoted (some redacting) (withPassword password)
      = recordToPayload .singleQuoted (withPassword "[REDACTED]") := by
  have hpassword : Python.singleQuoted.normalize "password"
      ∈ redacting.fieldNames .singleQuoted := by decide +kernel
  have hkeys : ∀ key ∈ ["pipeline_id", "run_id", "stage", "error_type", "error_message", "record",
      "original_record", "processed_record", "source", "checkpoint", "details", "middleware", "sink",
      "created_at", "attempt", "max_attempts", "id"],
      Python.singleQuoted.normalize key ∉ redacting.fieldNames .singleQuoted := by
    decide +kernel
  simp only [List.forall_mem_cons] at hkeys
  show redactMembers .singleQuoted _ _ _ (recordToPayload .singleQuoted (withPassword password)) = _
  unfold recordToPayload payloadOf withPassword digits optional
  simp [redactMembers, redactValue, hkeys, hpassword,
    show redacting.redactedValue = "[REDACTED]" from rfl]

/-- **Two records in one row**, though the hash keeps all texts apart: their values differ in the
password only. -/
theorem same_row_withPassword : ∃ s : Log String, ∃ r ∈ s.written, ∃ r' ∈ s.written,
    Relation.ReflTransGen (Step .singleQuoted id ⟨some redacting⟩) ⟨.empty, []⟩ s
      ∧ ¬ Same r r' ∧ r.storageId = some (.row 1) ∧ r'.storageId = some (.row 1) := by
  have hrow : ∀ password, recordToRow .singleQuoted id (some redacting) (withPassword password)
      = .ok { clearRow .singleQuoted (withPassword "[REDACTED]") with
        dedupeKey := some (encodedRow .singleQuoted
          (clearRow .singleQuoted (withPassword "[REDACTED]"))) } := by
    intro password
    unfold recordToRow
    rw [applied_withPassword, payloadToRow_recordToPayload]
    rfl
  refine ⟨_, _, List.mem_cons_self, _, List.mem_cons_of_mem _ List.mem_cons_self,
    run_of_row_eq rfl (by decide) (by decide) (hrow "a") (hrow "b"), ?_, rfl, rfl⟩
  intro h
  have hrecord := congrArg DLQRecord.record h
  simp [fieldsOf, withPassword] at hrecord

end PostgresDLQ

end Dlq

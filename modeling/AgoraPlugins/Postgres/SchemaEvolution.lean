import AgoraPlugins.Postgres.SchemaAdapter

/-!
# Adapters of one table

Several schema adapters may write to one table, each with schemas of its own, and their
statements interleave as they please. What one adapter believes of the table's columns stays
true whatever the others do, since columns are only ever added.

There is one step at which an adapter comes to believe what may not be so. Two adapters can
find that there is no table, and both then execute `CREATE TABLE IF NOT EXISTS`. The second
statement does nothing, but its adapter takes the columns of its own schema for those of the
table, adds none, and records the schema. That no such statement meets a table that lacks a
column of its schema (`Creates`) is exactly what it takes for the recorded schemas to be in
the table (`allStates_holds_iff`).
-/

namespace SchemaAdapter

variable {κ ν η ι : Type}

/-! ## A name that means one table -/

/-- **The name means the table at a place**: no other place where it is looked for has a
table, and it would be created there. -/
structure Means (db : Database κ ν) (p : ν × ν) (at_ : List (ν × ν)) : Prop where
  alone : ∀ q ∈ at_, q ≠ p → db q = none
  place : at_.head? = some p ∨ p ∈ at_ ∧ (db p).isSome = true

/-- **A database in which only the table at a place has changed**, and lost nothing. -/
structure Grows [DecidableEq κ] (p : ν × ν) (db db' : Database κ ν) : Prop where
  others : ∀ q, q ≠ p → db' q = db q
  exists_ : (db p).isSome = true → (db' p).isSome = true
  columns : (db p).elim ∅ Table.names ⊆ (db' p).elim ∅ Table.names

namespace Means

variable {db db' : Database κ ν} {p : ν × ν} {at_ : List (ν × ν)}

theorem mem (h : Means db p at_) : p ∈ at_ :=
  h.place.elim List.mem_of_mem_head? And.left

theorem tableExists (h : Means db p at_) : db.tableExists at_ = (db p).isSome := by
  cases hp : db p with
  | some table =>
    have hmem := h.mem
    simp only [Database.tableExists, Option.isSome_some, List.any_eq_true]
    exact ⟨p, hmem, by simp [hp]⟩
  | none =>
    rw [Option.isSome_none, Database.tableExists_eq_false_iff]
    intro q hq
    by_cases hqp : q = p
    · rw [hqp, hp]
    · exact h.alone q hq hqp

theorem target (h : Means db p at_) (hp : (db p).isSome = true) : db.target at_ = some p := by
  have hexists : (db.target at_).isSome = true := by
    unfold Database.target
    rw [List.find?_isSome]
    exact ⟨p, h.mem, hp⟩
  obtain ⟨q, hq⟩ := Option.isSome_iff_exists.1 hexists
  by_cases hqp : q = p
  · rw [hq, hqp]
  · have hsome := Database.target_isSome hq
    rw [h.alone q (List.mem_of_find?_eq_some hq) hqp] at hsome
    cases hsome

variable [DecidableEq κ]

theorem columnsOf (h : Means db p at_) : db.columnsOf at_ = (db p).elim ∅ Table.names := by
  cases hp : db p with
  | some table => exact Database.columnsOf_eq (h.target (by rw [hp]; rfl)) hp
  | none =>
    refine Database.columnsOf_eq_empty ?_
    rw [h.tableExists, hp]
    rfl

omit [DecidableEq κ] in
theorem mem_lookupColumns [DecidableEq κ] {c : κ} :
    c ∈ db.lookupColumns at_ ↔ ∃ q ∈ at_, c ∈ (db q).elim ∅ Table.names := by
  unfold Database.lookupColumns
  induction at_ with
  | nil => simp
  | cons q at_ ih => simp [ih]

/-- **What is looked up** is what there is. -/
theorem lookupColumns (h : Means db p at_) :
    db.lookupColumns at_ = (db p).elim ∅ Table.names := by
  ext c
  rw [mem_lookupColumns]
  constructor
  · rintro ⟨q, hq, hc⟩
    by_cases hqp : q = p
    · rwa [hqp] at hc
    · rw [h.alone q hq hqp] at hc
      cases hc
  · intro hc
    exact ⟨p, h.mem, hc⟩

theorem grows (h : Means db p at_) (hdb : Grows p db db') : Means db' p at_ := by
  refine ⟨fun q hq hqp => ?_, h.place.imp id (And.imp_right hdb.exists_)⟩
  rw [hdb.others q hqp]
  exact h.alone q hq hqp

end Means

/-! ## Several adapters -/

/-- Adapters and the database. -/
structure System (κ ν ι : Type) where
  db : Database κ ν
  adapters : ι → Adapter κ ν := fun _ => {}

/-- The schemas of an adapter are all for its table. -/
def Event.forTable (table : TableName ν) : Event κ ν → Event κ ν
  | .apply schema => .apply { schema with table }
  | e => e

section Systems

variable [LinearOrder κ]

/-- An adapter of a system, with the database. -/
def System.state (s : System κ ν ι) (i : ι) : State κ ν := ⟨s.db, s.adapters i⟩

/-- **The recorded schemas hold**: their columns are in the table. -/
def Holds (p : ν × ν) (s : System κ ν ι) : Prop :=
  ∀ i schema, (s.adapters i).appliedSchema = some schema →
    schema.names ⊆ (s.db p).elim ∅ Table.names

/-! ## What one adapter keeps -/

/-- **An adapter of the table** at a place: what it believes is so, and it is busy with the
table only. -/
structure Sound (cfg : Config κ ν η) (table : TableName ν) (p : ν × ν) (db : Database κ ν)
    (a : Adapter κ ν) : Prop where
  believes : Believes cfg db a
  existing : a.existingColumns ⊆ (db p).elim ∅ Table.names
  busy : ∀ schema, a.pc.schema? = some schema → schema.table = table
  applied : ∀ schema, a.appliedSchema = some schema → schema.table = table
  head : ∀ schema, a.pc = .creating schema → (cfg.places schema).head? = some p

variable {cfg : Config κ ν η} {table : TableName ν} {p : ν × ν} {db db' : Database κ ν}
  {a : Adapter κ ν} {s t : State κ ν} {e : Event κ ν}

theorem Means.columnsOf_schema {schema : Schema κ ν}
    (hm : Means db p (places cfg.searchPath table)) (htable : schema.table = table) :
    cfg.columnsOf db schema = (db p).elim ∅ Table.names := by
  unfold Config.columnsOf Config.places
  rw [htable]
  exact hm.columnsOf

/-- **What an adapter believes stays so** when columns are added to the table. -/
theorem Sound.grows (hs : Sound cfg table p db a)
    (hm : Means db p (places cfg.searchPath table)) (hdb : Grows p db db') :
    Sound cfg table p db' a := by
  refine ⟨?_, hs.existing.trans hdb.columns, hs.busy, hs.applied, hs.head⟩
  have hcolumns : ∀ schema, a.pc.schema? = some schema →
      cfg.columnsOf db schema ⊆ cfg.columnsOf db' schema := by
    intro schema hpc
    rw [hm.columnsOf_schema (hs.busy schema hpc),
      (hm.grows hdb).columnsOf_schema (hs.busy schema hpc)]
    exact hdb.columns
  have hbelieves := hs.believes
  unfold Believes at hbelieves ⊢
  split
  · rename_i schema hpc
    rwa [hpc] at hbelieves
  · rename_i schema found hpc
    rwa [hpc] at hbelieves
  · rename_i schema hpc
    rw [hpc] at hbelieves
    exact hbelieves.trans (hcolumns schema (by rw [hpc]; rfl))
  · rename_i schema newColumns _ hpc
    rw [hpc] at hbelieves
    exact ⟨hbelieves.1.trans (hcolumns schema (by rw [hpc]; rfl)), hbelieves.2⟩
  · trivial

/-- Where the name means one table, the table is known. -/
theorem Sound.knows (hs : Sound cfg table p s.db s.adapter) (hon : cfg.autoCreate = true)
    (hm : Means s.db p (places cfg.searchPath table)) : Knows cfg s e := by
  have hplaces : ∀ schema found, s.adapter.pc = .loading schema found →
      cfg.columnsOf s.db schema = (s.db p).elim ∅ Table.names
        ∧ s.db.lookupColumns (cfg.places schema) = (s.db p).elim ∅ Table.names := by
    intro schema found hpc
    have htable := hs.busy schema (by rw [hpc]; rfl)
    refine ⟨hm.columnsOf_schema htable, ?_⟩
    unfold Config.places
    rw [htable]
    exact hm.lookupColumns
  unfold Knows
  split
  · intro hoff
    rw [hon] at hoff
    cases hoff
  · split
    · rename_i schema found hpc
      obtain ⟨hcolumns, hlookup⟩ := hplaces schema found hpc
      rw [hcolumns, hlookup]
      exact Finset.inter_subset_right
    · trivial
  · split
    · rename_i schema found hpc
      rw [(hplaces schema found hpc).1]
      exact Finset.inter_subset_right.trans hs.existing
    · trivial
  · trivial

variable [DecidableEq ν]

theorem grows_alterTable {at_ : List (ν × ν)} {name : κ} {column : PgColumn}
    (hm : Means db p at_) (h : db.alterTable at_ name column = some db') : Grows p db db' := by
  obtain ⟨q, found, htarget, hfound, rfl⟩ := Database.alterTable_eq_some h
  have hq : q = p := by
    have hp : (db p).isSome = true := by
      rw [← hm.tableExists]
      exact List.any_eq_true.2 ⟨q, List.mem_of_find?_eq_some htarget, by simp [hfound]⟩
    rw [hm.target hp] at htarget
    exact (Option.some.inj htarget).symm
  subst hq
  refine ⟨fun q' hq' => Function.update_of_ne hq' _ _, by simp, ?_⟩
  rw [Function.update_self, hfound]
  show found.names ⊆ (found.addColumn name column).names
  rw [Database.names_addColumn]
  exact Finset.subset_insert _ _

theorem grows_createTable {at_ : List (ν × ν)} {new : Table κ} (hhead : at_.head? = some p)
    (h : db.createTable at_ new = some db') : Grows p db db' := by
  obtain ⟨q, rest, rfl, hothers, hplace, _⟩ := Database.of_createTable h
  cases Option.some.inj hhead
  refine ⟨hothers, fun _ => by rw [hplace]; rfl, ?_⟩
  rw [hplace]
  cases db p with
  | none => exact Finset.empty_subset _
  | some found => exact Finset.Subset.refl _

variable [DecidableEq η]

/-- **A step only adds** to the table. -/
theorem grows_step (hm : Means s.db p (places cfg.searchPath table))
    (hs : Sound cfg table p s.db s.adapter) (h : step cfg s e = some t) :
    Grows p s.db t.db := by
  have hsame : Grows p s.db s.db := ⟨fun _ _ => rfl, id, Finset.Subset.refl _⟩
  have hbusy : ∀ schema, s.adapter.pc.schema? = some schema →
      Means s.db p (cfg.places schema) := by
    intro schema hpc
    unfold Config.places
    rw [hs.busy schema hpc]
    exact hm
  have hadd : ∀ {schema name tableHasRows db'}, s.adapter.pc.schema? = some schema →
      cfg.addColumn s.db schema name tableHasRows = some db' → Grows p s.db db' := by
    intro schema name tableHasRows db' hpc hdb
    unfold Config.addColumn at hdb
    simp only [Option.bind_eq_bind, Option.bind_eq_some_iff] at hdb
    obtain ⟨column, _, hdb⟩ := hdb
    exact grows_alterTable (hbusy schema hpc) hdb
  cases move_of_step h with
  | creates schema db' hpc _ hdb => exact grows_createTable (hs.head schema hpc) hdb
  | alters schema name names tableHasRows db' hpc hdb => exact hadd (by rw [hpc]; rfl) hdb
  | finishes schema name tableHasRows db' hpc hdb => exact hadd (by rw [hpc]; rfl) hdb
  | _ => exact hsame

/-- The columns that an adapter takes for existing ones. -/
theorem existing_step (hon : cfg.autoCreate = true)
    (hm : Means s.db p (places cfg.searchPath table))
    (hs : Sound cfg table p s.db s.adapter) (hc : Creates cfg s e)
    (h : step cfg s e = some t) :
    t.adapter.existingColumns ⊆ (t.db p).elim ∅ Table.names := by
  have hgrows := grows_step hm hs h
  have hadd : ∀ {schema name tableHasRows db'}, s.adapter.pc.schema? = some schema →
      cfg.addColumn s.db schema name tableHasRows = some db' → t.db = db' →
      insert name s.adapter.existingColumns ⊆ (t.db p).elim ∅ Table.names := by
    intro schema name tableHasRows db' hpc hdb ht
    refine Finset.insert_subset ?_ (hs.existing.trans hgrows.columns)
    unfold Config.addColumn at hdb
    simp only [Option.bind_eq_bind, Option.bind_eq_some_iff] at hdb
    obtain ⟨column, _, hdb⟩ := hdb
    have hcolumns : cfg.columnsOf t.db schema = insert name (cfg.columnsOf s.db schema) :=
      ht ▸ Database.of_alterTable hdb
    rw [← (hm.grows hgrows).columnsOf_schema (hs.busy schema hpc), hcolumns]
    exact Finset.mem_insert_self _ _
  cases move_of_step h with
  | skips schema _ _ hoff =>
    rw [hon] at hoff
    cases hoff
  | loads schema found existing hpc hexisting =>
    rw [(proceeds_loaded _ _ _ _).existing]
    obtain rfl | rfl := hexisting
    · have hlookup : s.db.lookupColumns (cfg.places schema) = (s.db p).elim ∅ Table.names := by
        unfold Config.places
        rw [hs.busy schema (by rw [hpc]; rfl)]
        exact hm.lookupColumns
      exact hlookup.le
    · exact hs.existing
  | creates schema db' hpc he hdb =>
    rw [(proceeds_alterTableAddColumns _ _ _).existing]
    have hcreates : ∀ q ∈ (cfg.places schema).head?, ∀ found ∈ s.db q,
        schema.names ⊆ found.names := by
      rw [he] at hc
      simpa [Creates, hpc] using hc
    have hnames := names_subset_of_createTable hcreates hdb
    rwa [(hm.grows hgrows).columnsOf_schema (hs.busy schema (by rw [hpc]; rfl))] at hnames
  | alters schema name names tableHasRows db' hpc hdb => exact hadd (by rw [hpc]; rfl) hdb rfl
  | finishes schema name tableHasRows db' hpc hdb => exact hadd (by rw [hpc]; rfl) hdb rfl
  | _ => exact hs.existing

omit [LinearOrder κ] [DecidableEq ν] [DecidableEq η] in
/-- What an adapter that proceeds with a schema of the table is busy with, and records. -/
theorem Proceeds.busy {schema : Schema κ ν} {a a' : Adapter κ ν} (h : Proceeds schema a a')
    (htable : schema.table = table)
    (happlied : ∀ schema, a.appliedSchema = some schema → schema.table = table) :
    (∀ schema, a'.pc.schema? = some schema → schema.table = table)
      ∧ ∀ schema, a'.appliedSchema = some schema → schema.table = table := by
  refine ⟨fun schema' hpc => ?_, fun schema' hnew => ?_⟩
  · obtain hnone | hsome := h.pc
    · rw [hnone] at hpc
      cases hpc
    · rw [hsome] at hpc
      exact Option.some.inj hpc ▸ htable
  · obtain hold | hsome := h.applied
    · exact happlied schema' (hold ▸ hnew)
    · rw [hsome] at hnew
      exact Option.some.inj hnew ▸ htable

/-- **An adapter of the table stays one**: what it is busy with, and what it records. -/
theorem busy_step (hs : Sound cfg table p s.db s.adapter)
    (hbusy : ∀ schema, e = .apply schema → schema.table = table)
    (h : step cfg s e = some t) :
    (∀ schema, t.adapter.pc.schema? = some schema → schema.table = table)
      ∧ ∀ schema, t.adapter.appliedSchema = some schema → schema.table = table := by
  have hsame : ∀ {schema : Schema κ ν} {pc : Pc κ ν}, s.adapter.pc.schema? = some schema →
      pc.schema? = some schema → ∀ schema', pc.schema? = some schema' →
        schema'.table = table := by
    intro schema pc hfrom hto schema' hpc
    rw [hto] at hpc
    exact Option.some.inj hpc ▸ hs.busy schema hfrom
  have hfrom : ∀ {schema : Schema κ ν} {pc : Pc κ ν}, s.adapter.pc = pc →
      pc.schema? = some schema → s.adapter.pc.schema? = some schema :=
    fun hpc hschema => by rw [hpc, hschema]
  cases move_of_step h with
  | begins schema _ he _ =>
    refine ⟨fun schema' hpc => ?_, hs.applied⟩
    cases hpc
    exact hbusy schema he
  | skips schema _ he _ =>
    exact (proceeds_alterTableAddColumns _ _ _).busy (hbusy schema he) hs.applied
  | loads schema found existing hpc _ =>
    exact (proceeds_loaded _ _ _ _).busy (hs.busy schema (hfrom hpc rfl)) hs.applied
  | creates schema db' hpc _ _ =>
    exact (proceeds_alterTableAddColumns _ _ _).busy (hs.busy schema (hfrom hpc rfl)) hs.applied
  | finds schema hpc => exact ⟨hsame (hfrom hpc rfl) rfl, hs.applied⟩
  | misses schema hpc _ => exact ⟨hsame (hfrom hpc rfl) rfl, hs.applied⟩
  | commits schema hpc => exact ⟨hsame (hfrom hpc rfl) rfl, hs.applied⟩
  | probes schema newColumns tableHasRows hpc =>
    exact ⟨hsame (hfrom hpc rfl) rfl, hs.applied⟩
  | alters schema name names tableHasRows db' hpc _ =>
    exact ⟨hsame (hfrom hpc rfl) rfl, hs.applied⟩
  | finishes schema name tableHasRows db' hpc _ =>
    refine ⟨nofun, fun schema' happlied => ?_⟩
    exact Option.some.inj happlied ▸ hs.busy schema (hfrom hpc rfl)
  | stops => exact ⟨nofun, hs.applied⟩

/-- **A step of an adapter of the table**, if a table that it creates is created. -/
theorem sound_step (hon : cfg.autoCreate = true) (halter : cfg.autoAlter = true)
    (hm : Means s.db p (places cfg.searchPath table))
    (hs : Sound cfg table p s.db s.adapter)
    (hbusy : ∀ schema, e = .apply schema → schema.table = table) (hc : Creates cfg s e)
    (h : step cfg s e = some t) :
    Sound cfg table p t.db t.adapter
      ∧ ∀ schema, t.adapter.appliedSchema = some schema →
        s.adapter.appliedSchema = some schema ∨ schema.names ⊆ (t.db p).elim ∅ Table.names := by
  have hidles : Idles cfg s.adapter := by
    intro hoff
    rw [hon] at hoff
    cases hoff
  obtain ⟨_, hbelieves, hrecords⟩ :=
    faithful_step halter hidles hs.believes (hs.knows hon hm) hc h
  obtain ⟨hpc, happlied⟩ := busy_step hs hbusy h
  have hmeans := hm.grows (grows_step hm hs h)
  refine ⟨⟨hbelieves, existing_step hon hm hs hc h, hpc, happlied, ?_⟩, ?_⟩
  · intro schema hcreating
    obtain ⟨habsent, hdb⟩ := of_pc_creating h hcreating
    have htable : schema.table = table := hpc schema (by rw [hcreating]; rfl)
    unfold Config.places at habsent ⊢
    rw [htable] at habsent ⊢
    refine hm.place.resolve_right (fun hp => ?_)
    rw [hm.tableExists, hp.2] at habsent
    cases habsent
  · intro schema hnew
    by_cases hold : s.adapter.appliedSchema = some schema
    · exact .inl hold
    · right
      have hnames := hrecords schema hnew hold
      rwa [hmeans.columnsOf_schema (happlied schema hnew)] at hnames

/-- **A table that is not created** by its statement, and lacks a column, is taken for one
that has it. -/
theorem exists_missing_of_not_creates (halter : cfg.autoAlter = true)
    (hs : Sound cfg table p s.db s.adapter) (hc : ¬ Creates cfg s e)
    (h : step cfg s e = some t) :
    ∃ schema, t.adapter.appliedSchema = some schema
      ∧ ¬ schema.names ⊆ (t.db p).elim ∅ Table.names := by
  obtain ⟨db, a⟩ := s
  unfold Creates at hc
  split at hc
  · split at hc
    · rename_i schema hpc
      push Not at hc
      obtain ⟨q, hq, found, hfound, hmissing⟩ := hc
      have hpc' : a.pc = .creating schema := hpc
      have hhead : (cfg.places schema).head? = some p := hs.head schema hpc
      have hqp : q = p := by
        rw [hhead] at hq
        exact (Option.some.inj hq).symm
      subst hqp
      simp only [step, hpc', Option.bind_eq_bind, Option.bind_eq_some_iff] at h
      obtain ⟨db', hdb, h⟩ := h
      obtain ⟨q', rest, hplaces, _, hplace, _⟩ := Database.of_createTable hdb
      rw [hplaces] at hhead
      cases Option.some.inj hhead
      have hfound' : db q = some found := hfound
      have hkept : db' q = some found := by
        rw [hplace, hfound']
        rfl
      have hne : schema.names ≠ ∅ := by
        rintro hempty
        rw [hempty] at hmissing
        exact hmissing (Finset.empty_subset _)
      have hfinish : ∀ b : Adapter κ ν, b.tableCreated = true → b.existingColumns = schema.names →
          b.alterTableAddColumns schema cfg.autoAlter = b.finish schema := by
        intro b hb hb'
        simp [Adapter.alterTableAddColumns, Adapter.alterNew, halter, hb, hb', hne]
      cases h
      rw [hfinish _ rfl rfl]
      refine ⟨schema, rfl, ?_⟩
      show ¬ schema.names ⊆ (db' q).elim ∅ Table.names
      rwa [hkept]
    · exact absurd trivial hc
  · exact absurd trivial hc

/-! ## All adapters -/

variable [DecidableEq ι]

/-- **A step of a system** is a step of one of its adapters. -/
def systemStep (cfg : ι → Config κ ν η) (table : ι → TableName ν) (s : System κ ν ι)
    (e : ι × Event κ ν) : Option (System κ ν ι) :=
  (step (cfg e.1) (s.state e.1) (e.2.forTable (table e.1))).map
    (fun t => ⟨t.db, Function.update s.adapters e.1 t.adapter⟩)

/-- Every adapter is one of the table. -/
structure AllSound (cfg : ι → Config κ ν η) (table : ι → TableName ν) (p : ν × ν)
    (s : System κ ν ι) : Prop where
  means : ∀ i, Means s.db p (places (cfg i).searchPath (table i))
  sound : ∀ i, Sound (cfg i) (table i) p s.db (s.adapters i)

section Table

variable {cfg : ι → Config κ ν η} {table : ι → TableName ν} {u v : System κ ν ι}
  {e : ι × Event κ ν}

omit [LinearOrder κ] [DecidableEq ν] [DecidableEq η] [DecidableEq ι] in
theorem table_of_forTable {table : TableName ν} {e : Event κ ν} {schema : Schema κ ν}
    (h : e.forTable table = .apply schema) : schema.table = table := by
  cases e with
  | apply applied =>
    cases h
    rfl
  | _ => cases h

omit [DecidableEq ν] [DecidableEq η] [DecidableEq ι] in
theorem creates_forTable {cfg : Config κ ν η} {s : State κ ν} {table : TableName ν}
    {e : Event κ ν} : Creates cfg s (e.forTable table) ↔ Creates cfg s e := by
  cases e <;> exact Iff.rfl

/-- **A step of a system** keeps what the adapters believe true, and the recorded schemas in
the table, if a table that it creates is created. -/
theorem allSound_step (hcfg : ∀ i, (cfg i).autoCreate = true ∧ (cfg i).autoAlter = true)
    (hu : AllSound cfg table p u) (hheld : Holds p u)
    (hc : Creates (cfg e.1) (u.state e.1) e.2) (h : systemStep cfg table u e = some v) :
    AllSound cfg table p v ∧ Holds p v := by
  obtain ⟨i, e⟩ := e
  obtain ⟨t, ht, rfl⟩ := Option.map_eq_some_iff.1 h
  have hgrows : Grows p u.db t.db := grows_step (hu.means i) (hu.sound i) ht
  obtain ⟨hsound, hnew⟩ := sound_step (hcfg i).1 (hcfg i).2 (hu.means i) (hu.sound i)
    (fun _ => table_of_forTable) (creates_forTable.2 hc) ht
  refine ⟨⟨fun j => (hu.means j).grows hgrows, fun j => ?_⟩, fun j schema happlied => ?_⟩
  · by_cases hj : j = i
    · subst hj
      show Sound _ _ p t.db (Function.update u.adapters j t.adapter j)
      rwa [Function.update_self]
    · show Sound _ _ p t.db (Function.update u.adapters i t.adapter j)
      rw [Function.update_of_ne hj]
      exact (hu.sound j).grows (hu.means j) hgrows
  · show schema.names ⊆ (t.db p).elim ∅ Table.names
    change (Function.update u.adapters i t.adapter j).appliedSchema = some schema at happlied
    by_cases hj : j = i
    · subst hj
      rw [Function.update_self] at happlied
      exact (hnew schema happlied).elim
        (fun hold => (hheld j schema hold).trans hgrows.columns) id
    · rw [Function.update_of_ne hj] at happlied
      exact (hheld j schema happlied).trans hgrows.columns

/-- At the step that goes wrong a schema is recorded that is not in the table. -/
theorem holds_step_iff (hcfg : ∀ i, (cfg i).autoCreate = true ∧ (cfg i).autoAlter = true)
    (hu : AllSound cfg table p u) (hheld : Holds p u)
    (h : systemStep cfg table u e = some v) :
    Holds p v ↔ Creates (cfg e.1) (u.state e.1) e.2 := by
  refine ⟨fun hv => ?_, fun hc => (allSound_step hcfg hu hheld hc h).2⟩
  by_contra hc
  obtain ⟨i, e⟩ := e
  obtain ⟨t, ht, rfl⟩ := Option.map_eq_some_iff.1 h
  obtain ⟨schema, happlied, hmissing⟩ := exists_missing_of_not_creates (hcfg i).2 (hu.sound i)
    (fun hc' => hc (creates_forTable.1 hc')) ht
  refine hmissing (hv i schema ?_)
  show (Function.update u.adapters i t.adapter i).appliedSchema = some schema
  rwa [Function.update_self]

/-- **Exactly the runs in which tables are created.** For adapters of one table, with both
flags on, however their statements interleave: the columns of every schema that an adapter
has recorded are in the table, throughout a run, if and only if no `CREATE TABLE` of the run
meets a table that lacks a column of its schema. -/
theorem allStates_holds_iff
    (hcfg : ∀ i, (cfg i).autoCreate = true ∧ (cfg i).autoAlter = true)
    (hmeans : ∀ i, Means db p (places (cfg i).searchPath (table i)))
    (es : List (ι × Event κ ν)) :
    Machine.AllStates (systemStep cfg table) (Holds p) ⟨db, fun _ => {}⟩ es
      ↔ Machine.AllSteps (systemStep cfg table)
        (fun u e _ => Creates (cfg e.1) (u.state e.1) e.2) ⟨db, fun _ => {}⟩ es := by
  have hinit : AllSound cfg table p (⟨db, fun _ => {}⟩ : System κ ν ι) :=
    ⟨hmeans, fun i => ⟨trivial, Finset.empty_subset _, nofun, nofun, nofun⟩⟩
  refine Machine.allStates_iff_allSteps (I := fun u => Holds p u → AllSound cfg table p u)
    (fun u e v hu hheld hstep => ?_) (fun _ => hinit) (fun i schema happlied => ?_) es
  · have hiff := holds_step_iff hcfg (hu hheld) hheld hstep
    exact ⟨fun hv => (allSound_step hcfg (hu hheld) hheld (hiff.1 hv) hstep).1, hiff⟩
  · cases happlied

end Table

end Systems

/-! ## A table that is created twice -/

/-- Two adapters of the table of users. -/
def twoCreating : Bool → Config String String (Finset String) := fun _ => creating true

def users : Bool → TableName String := fun _ => .name "users"

/-- The schema of one of them. -/
def ids : Schema String String where
  table := .name "users"
  columns := AList.insert "id" ⟨.integer, false⟩ ∅

/-- The schema of the other. -/
def mails : Schema String String where
  table := .name "users"
  columns := AList.insert "mail" ⟨.string, true⟩ ∅

/-- Nothing has been created yet. -/
def noTables : Database String String := fun _ => none

theorem means_users (i : Bool) :
    Means noTables ("public", "users") (places (twoCreating i).searchPath (users i)) :=
  ⟨fun _ _ _ => rfl, .inl rfl⟩

/-- One of them creates the table, and then the other one adds its column. -/
def createdThenAltered : List (Bool × Event String String) :=
  [(false, .apply ids), (false, .executed), (false, .executed), (true, .apply mails),
    (true, .executed), (true, .executed), (true, .executed), (true, .rows true), (true, .executed)]

/-- **One after the other, both record what is there.** -/
theorem allStates_holds_users :
    (∃ u, Machine.run (systemStep twoCreating users) ⟨noTables, fun _ => {}⟩ createdThenAltered
        = some u
      ∧ (u.adapters false).appliedSchema.map Schema.names = some {"id"}
      ∧ (u.adapters true).appliedSchema.map Schema.names = some {"mail"})
      ∧ Machine.AllStates (systemStep twoCreating users) (Holds ("public", "users"))
        ⟨noTables, fun _ => {}⟩ createdThenAltered := by
  have hcfg : ∀ i, (twoCreating i).autoCreate = true ∧ (twoCreating i).autoAlter = true :=
    fun _ => ⟨rfl, rfl⟩
  have hcreates : Machine.AllSteps (systemStep twoCreating users)
      (fun u e _ => Creates (twoCreating e.1) (u.state e.1) e.2) ⟨noTables, fun _ => {}⟩
      createdThenAltered := by
    decide +kernel
  have hrun : (Machine.run (systemStep twoCreating users) ⟨noTables, fun _ => {}⟩
      createdThenAltered).any (fun u =>
        (u.adapters false).appliedSchema.map Schema.names = some {"id"}
        ∧ (u.adapters true).appliedSchema.map Schema.names = some {"mail"}) = true := by
    decide +kernel
  obtain ⟨u, hu, happlied⟩ := (Option.any_eq_true _ _).1 hrun
  exact ⟨⟨u, hu, of_decide_eq_true happlied⟩,
    (allStates_holds_iff hcfg means_users _).2 hcreates⟩

/-- **Both look before either creates**, and the second schema is recorded without its
column. -/
theorem not_union_subset_users :
    ¬ ∀ (es : List (Bool × Event String String)) (u : System String String Bool)
        (schema schema' : Schema String String),
      Machine.run (systemStep twoCreating users) ⟨noTables, fun _ => {}⟩ es = some u →
      (u.adapters false).appliedSchema = some schema →
      (u.adapters true).appliedSchema = some schema' →
      schema.names ∪ schema'.names ⊆ (u.db ("public", "users")).elim ∅ Table.names := by
  intro h
  have hcolumns := h [(false, .apply ids), (true, .apply mails), (false, .executed),
    (true, .executed), (false, .executed), (true, .executed)] _ _ _ rfl rfl rfl
  revert hcolumns
  decide +kernel

end SchemaAdapter

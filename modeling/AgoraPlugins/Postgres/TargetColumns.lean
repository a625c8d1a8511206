import AgoraPlugins.Postgres.InsertModes

/-!
# What alignment knows of a column

A writer that aligns its rows reads the columns of the target from `information_schema`: a name,
whether it may be null, the text of its default and whether it is generated. Three flags are made
of these, and by them a row is refused that lacks what is NOT NULL and has no default, and a column
is dropped that is generated.

The catalogue has nothing there for an identity: the column has no default and is not generated.
So a row that leaves one out is refused, though its number would be drawn, and a value for an
identity that is always generated goes into the statement, which is then refused. And a default
that is NULL counts as one. Where none of this is at stake, the writer refuses the rows that the
database would (`admission_iff`).
-/

/-- **What the catalogue has as the default** of a column. A default that is not NULL has a text,
one that is may have one as well, and an identity or a generated column has none. -/
def ColumnKind.Reported {ν : Type} : ColumnKind ν → Option String → Prop
  | .plain default, text => default.isSome = true → text.isSome = true
  | .serial, text => text.isSome = true
  | .identity _, text => text = none
  | .generated, text => text = none

def ColumnKind.isGenerated {ν : Type} : ColumnKind ν → Bool
  | .generated => true
  | _ => false

/-- Whether a column that is left out is NULL. -/
def ColumnKind.leavesNull {ν : Type} : ColumnKind ν → Bool
  | .plain default => default.isNone
  | _ => false

/-- **A column of a table.** -/
structure TableColumn (κ ν : Type) where
  name : κ
  notNull : Bool
  kind : ColumnKind ν
  defaultText : Option String
  reported : kind.Reported defaultText
  identity_notNull : ∀ always, kind = .identity always → notNull = true

/-- A row of `information_schema.columns`. -/
structure InformationSchemaColumn (κ : Type) where
  columnName : κ
  isNullable : String
  columnDefault : Option String
  isGenerated : String

variable {κ ν : Type}

/-- What the catalogue has of a column. -/
def TableColumn.catalogued (column : TableColumn κ ν) : InformationSchemaColumn κ where
  columnName := column.name
  isNullable := if column.notNull then "NO" else "YES"
  columnDefault := column.defaultText
  isGenerated := if column.kind.isGenerated then "ALWAYS" else "NEVER"

/-- The flags of a column. -/
def targetColumn (row : InformationSchemaColumn κ) : TargetColumn κ where
  name := row.columnName
  nullable := row.isNullable.toUpper = "YES"
  hasDefault := row.columnDefault.isSome
  writable := row.isGenerated.toUpper = "NEVER"

/-- **`_load_target_columns`.** -/
def loadTargetColumns (rows : List (InformationSchemaColumn κ)) :
    Except PostgresSinkWriteError (List (TargetColumn κ)) :=
  if rows.isEmpty then
    .error ⟨"Postgres target table is missing.", .schemaDrift, "undefined_table"⟩
  else .ok (rows.map targetColumn)

theorem toUpper_eq : ∀ text ∈ ["YES", "NO", "ALWAYS", "NEVER"], text.toUpper = text := by
  decide +kernel

/-- **The flags of a column of a table.** -/
theorem targetColumn_catalogued (column : TableColumn κ ν) :
    targetColumn column.catalogued
      = { name := column.name
          nullable := !column.notNull
          hasDefault := column.defaultText.isSome
          writable := !column.kind.isGenerated } := by
  unfold targetColumn TableColumn.catalogued
  dsimp only
  congr 1
  · cases column.notNull
    · rw [if_neg Bool.false_ne_true, toUpper_eq "YES" (by simp)]
      rfl
    · rw [if_pos rfl, toUpper_eq "NO" (by simp)]
      rfl
  · cases column.kind.isGenerated
    · rw [if_neg Bool.false_ne_true, toUpper_eq "NEVER" (by simp)]
      rfl
    · rw [if_pos rfl, toUpper_eq "ALWAYS" (by simp)]
      rfl

theorem eq_of_loadTargetColumns {columns : List (TableColumn κ ν)} {targets : List (TargetColumn κ)}
    (h : loadTargetColumns (columns.map TableColumn.catalogued) = .ok targets) :
    targets = columns.map (fun column =>
      { name := column.name
        nullable := !column.notNull
        hasDefault := column.defaultText.isSome
        writable := !column.kind.isGenerated }) := by
  unfold loadTargetColumns at h
  rw [Fallible.ite_error_eq_ok_iff] at h
  rw [h.2, List.map_map]
  exact List.map_congr_left (fun column _ => targetColumn_catalogued column)

namespace WriteConfig

variable [DecidableEq κ] (cfg : WriteConfig κ ν) (columns : List (TableColumn κ ν))
  (row : Row κ ν)

/-! ## What the database does with an aligned row -/

/-- **The row leaves out what is NOT NULL** and would be NULL. -/
def ViolatesNotNull : Prop :=
  ∃ column ∈ columns, column.notNull = true ∧ column.name ∉ row.keys
    ∧ column.kind.leavesNull = true

/-- **Admission is right**: a row is refused for what it lacks if and only if it would violate a
NOT NULL constraint by what it leaves out, and an aligned row has no column that may not be given a
value. -/
structure Admits : Prop where
  required_iff : (∃ e, cfg.normalizeRow row = .error e ∧ e.reason = "missing_required_columns")
    ↔ ViolatesNotNull columns (Dict.restrict cfg.writable row)
  accepted : ∀ aligned, cfg.normalizeRow row = .ok aligned → ∀ column ∈ columns,
    column.name ∈ aligned.keys → column.kind.isAlways = false

/-! ## The columns at stake -/

/-- A column is left out. -/
def Omits (p : TableColumn κ ν → Prop) : Prop :=
  ∃ column ∈ columns, column.name ∉ row.keys ∧ p column

/-- A column that is NOT NULL and has no default of any sort. -/
def IsRequired (column : TableColumn κ ν) : Prop :=
  column.notNull = true ∧ column.kind = .plain none ∧ column.defaultText = none

/-- A column that is NOT NULL, though its default is NULL. -/
def HasNullDefault (column : TableColumn κ ν) : Prop :=
  column.notNull = true ∧ column.kind = .plain none ∧ column.defaultText.isSome = true

def IsIdentity (column : TableColumn κ ν) : Prop := ∃ always, column.kind = .identity always

/-- The conflict keys are columns that have their values from rows. -/
def KeysWritable : Prop :=
  ∀ k ∈ cfg.conflictKeys, ∃ column ∈ columns, column.name = k ∧ column.kind.isGenerated = false

/-- A row gives a value to an identity that is always generated. -/
def GivesAlways : Prop :=
  ∃ column ∈ columns, column.name ∈ row.keys ∧ column.kind = .identity true

variable {cfg} {columns} {row}

section Loaded

variable (hload : loadTargetColumns (columns.map TableColumn.catalogued) = .ok cfg.targetColumns)

include hload

/-- A column may be written if it is not generated. -/
theorem writable_iff {c : κ} :
    cfg.writable c = true
      ↔ ∃ column ∈ columns, column.name = c ∧ column.kind.isGenerated = false := by
  unfold writable
  rw [eq_of_loadTargetColumns hload, List.any_map, List.any_eq_true]
  simp

/-- Of the columns that rows give values to, an aligned row has those of the row. -/
theorem mem_aligned_iff {column : TableColumn κ ν} (hcolumn : column ∈ columns)
    (hgenerated : column.kind.isGenerated = false) :
    column.name ∈ (Dict.restrict cfg.writable row).keys ↔ column.name ∈ row.keys := by
  rw [Dict.mem_keys_restrict, writable_iff hload]
  exact and_iff_left ⟨column, hcolumn, rfl, hgenerated⟩

/-- **What an aligned row violates.** -/
theorem violatesNotNull_iff :
    ViolatesNotNull columns (Dict.restrict cfg.writable row)
      ↔ Omits columns row IsRequired ∨ Omits columns row HasNullDefault := by
  constructor
  · rintro ⟨column, hcolumn, hnull, homitted, hleaves⟩
    have hkind : column.kind = .plain none := by
      cases hk : column.kind with
      | plain default =>
        rw [hk] at hleaves
        exact congrArg ColumnKind.plain (Option.isNone_iff_eq_none.1 hleaves)
      | serial =>
        rw [hk] at hleaves
        cases hleaves
      | identity always =>
        rw [hk] at hleaves
        cases hleaves
      | generated =>
        rw [hk] at hleaves
        cases hleaves
    rw [mem_aligned_iff hload hcolumn (by rw [hkind]; rfl)] at homitted
    cases htext : column.defaultText with
    | none => exact .inl ⟨column, hcolumn, homitted, hnull, hkind, htext⟩
    | some text => exact .inr ⟨column, hcolumn, homitted, hnull, hkind, by rw [htext]; rfl⟩
  · have hviolated : ∀ column ∈ columns, column.name ∉ row.keys → column.notNull = true →
        column.kind = .plain none → ViolatesNotNull columns (Dict.restrict cfg.writable row) := by
      intro column hcolumn homitted hnull hkind
      refine ⟨column, hcolumn, hnull, ?_, by rw [hkind]; rfl⟩
      rwa [mem_aligned_iff hload hcolumn (by rw [hkind]; rfl)]
    rintro (⟨column, hcolumn, homitted, hnull, hkind, _⟩
      | ⟨column, hcolumn, homitted, hnull, hkind, _⟩)
    · exact hviolated column hcolumn homitted hnull hkind
    · exact hviolated column hcolumn homitted hnull hkind

/-- **What a row is refused for.** -/
theorem missingRequired_iff :
    (cfg.targetColumns.any (fun column => column.writable
        && column.name ∉ (Dict.restrict cfg.writable row).keys && !column.nullable
        && !column.hasDefault)) = true
      ↔ Omits columns row IsRequired ∨ Omits columns row IsIdentity := by
  rw [eq_of_loadTargetColumns hload, List.any_map, List.any_eq_true]
  simp only [Function.comp_apply, Bool.and_eq_true, Bool.not_eq_true', decide_eq_true_eq,
    Bool.not_eq_false', Option.isSome_eq_false_iff, Option.isNone_iff_eq_none]
  constructor
  · rintro ⟨column, hcolumn, ⟨⟨hgenerated, homitted⟩, hnull⟩, htext⟩
    rw [mem_aligned_iff hload hcolumn hgenerated] at homitted
    have hreported := column.reported
    cases hkind : column.kind with
    | plain default =>
      rw [hkind, htext] at hreported
      cases default with
      | none => exact .inl ⟨column, hcolumn, homitted, hnull, hkind, htext⟩
      | some value => cases hreported rfl
    | serial =>
      rw [hkind, htext] at hreported
      cases hreported
    | identity always => exact .inr ⟨column, hcolumn, homitted, always, hkind⟩
    | generated =>
      rw [hkind] at hgenerated
      cases hgenerated
  · rintro (⟨column, hcolumn, homitted, hnull, hkind, htext⟩
      | ⟨column, hcolumn, homitted, always, hkind⟩)
    · refine ⟨column, hcolumn, ⟨⟨by rw [hkind]; rfl, ?_⟩, hnull⟩, htext⟩
      rwa [mem_aligned_iff hload hcolumn (by rw [hkind]; rfl)]
    · have hreported := column.reported
      rw [hkind] at hreported
      refine ⟨column, hcolumn, ⟨⟨by rw [hkind]; rfl, ?_⟩, column.identity_notNull always hkind⟩,
        hreported⟩
      rwa [mem_aligned_iff hload hcolumn (by rw [hkind]; rfl)]

theorem missingKeys_iff (hkeys : ∀ k ∈ cfg.conflictKeys, k ∈ row.keys) :
    (cfg.conflictKeys.any (fun c => c ∉ (Dict.restrict cfg.writable row).keys)) = true
      ↔ ¬ KeysWritable cfg columns := by
  unfold KeysWritable
  rw [List.any_eq_true]
  simp only [decide_eq_true_eq, Dict.mem_keys_restrict, writable_iff hload, not_forall]
  constructor
  · rintro ⟨k, hk, hmissing⟩
    exact ⟨k, hk, fun hwritable => hmissing ⟨hkeys k hk, hwritable⟩⟩
  · rintro ⟨k, hk, hmissing⟩
    exact ⟨k, hk, fun h => hmissing h.2⟩

/-- **When a row is refused for what it lacks.** -/
theorem normalizeRow_required_iff (hkeys : ∀ k ∈ cfg.conflictKeys, k ∈ row.keys) :
    (∃ e, cfg.normalizeRow row = .error e ∧ e.reason = "missing_required_columns")
      ↔ KeysWritable cfg columns
        ∧ (Omits columns row IsRequired ∨ Omits columns row IsIdentity) := by
  have hmissing := missingKeys_iff hload hkeys
  have hrequired := @missingRequired_iff κ ν _ cfg columns row hload
  unfold normalizeRow
  dsimp only
  constructor
  · rintro ⟨e, h, hreason⟩
    split at h
    next =>
      cases h
      simp at hreason
    next hpresent =>
      rw [hmissing, not_not] at hpresent
      split at h
      next homits => exact ⟨hpresent, hrequired.1 homits⟩
      next =>
        split at h
        next =>
          cases h
          simp at hreason
        next => cases h
  · rintro ⟨hwritable, homits⟩
    have hpresent := mt hmissing.1 (not_not.2 hwritable)
    exact ⟨_, by rw [if_neg hpresent, if_pos (hrequired.2 homits)], rfl⟩

/-- **When a row is aligned.** -/
theorem normalizeRow_ok_iff (hkeys : ∀ k ∈ cfg.conflictKeys, k ∈ row.keys) :
    (∃ aligned, cfg.normalizeRow row = .ok aligned)
      ↔ KeysWritable cfg columns
        ∧ ¬ (Omits columns row IsRequired ∨ Omits columns row IsIdentity)
        ∧ (Dict.restrict cfg.writable row).entries ≠ [] := by
  have hmissing := missingKeys_iff hload hkeys
  have hrequired := @missingRequired_iff κ ν _ cfg columns row hload
  unfold normalizeRow
  dsimp only
  constructor
  · rintro ⟨aligned, h⟩
    split at h
    next => cases h
    next hpresent =>
      rw [hmissing, not_not] at hpresent
      split at h
      next => cases h
      next hadmitted =>
        split at h
        next => cases h
        next hne => exact ⟨hpresent, mt hrequired.2 hadmitted, by simpa using hne⟩
  · rintro ⟨hwritable, homits, hne⟩
    have hpresent := mt hmissing.1 (not_not.2 hwritable)
    refine ⟨Dict.restrict cfg.writable row, ?_⟩
    rw [if_neg hpresent, if_neg (mt hrequired.1 homits), if_neg (by simpa using hne)]

/-- **What an aligned row gives a value to**: identities that are always generated, and no
generated column, since no two columns have one name. -/
theorem exists_isAlways_iff (hnodup : (columns.map TableColumn.name).Nodup) :
    (∃ column ∈ columns, column.name ∈ (Dict.restrict cfg.writable row).keys
        ∧ column.kind.isAlways = true)
      ↔ GivesAlways columns row := by
  constructor
  · rintro ⟨column, hcolumn, hgiven, halways⟩
    rw [Dict.mem_keys_restrict, writable_iff hload] at hgiven
    obtain ⟨hgiven, column', hcolumn', hname, hgenerated⟩ := hgiven
    obtain rfl := List.inj_on_of_nodup_map hnodup hcolumn' hcolumn hname
    refine ⟨column', hcolumn, hgiven, ?_⟩
    cases hkind : column'.kind with
    | plain default =>
      rw [hkind] at halways
      cases halways
    | serial =>
      rw [hkind] at halways
      cases halways
    | identity always =>
      rw [hkind] at halways
      exact congrArg ColumnKind.identity halways
    | generated =>
      rw [hkind] at hgenerated
      cases hgenerated
  · rintro ⟨column, hcolumn, hgiven, hkind⟩
    refine ⟨column, hcolumn, ?_, by rw [hkind]; rfl⟩
    rwa [mem_aligned_iff hload hcolumn (by rw [hkind]; rfl)]

/-- **When only columns that may be given a value are.** -/
theorem accepted_iff (hnodup : (columns.map TableColumn.name).Nodup)
    (hkeys : ∀ k ∈ cfg.conflictKeys, k ∈ row.keys) :
    (∀ aligned, cfg.normalizeRow row = .ok aligned → ∀ column ∈ columns,
        column.name ∈ aligned.keys → column.kind.isAlways = false)
      ↔ (KeysWritable cfg columns → GivesAlways columns row →
        Omits columns row IsRequired ∨ Omits columns row IsIdentity) := by
  have hok := normalizeRow_ok_iff hload hkeys
  have halways := @exists_isAlways_iff κ ν _ cfg columns row hload hnodup
  constructor
  · intro haccepted hwritable hgives
    by_contra homits
    obtain ⟨column, hcolumn, hgiven, hkind⟩ := halways.2 hgives
    have hne : (Dict.restrict cfg.writable row).entries ≠ [] := by
      intro hnil
      have hkeys : (Dict.restrict cfg.writable row).keys = [] := congrArg List.keys hnil
      rw [hkeys] at hgiven
      cases hgiven
    obtain ⟨aligned, haligned⟩ := hok.2 ⟨hwritable, homits, hne⟩
    rw [← eq_restrict_of_normalizeRow haligned] at hgiven
    rw [haccepted aligned haligned column hcolumn hgiven] at hkind
    cases hkind
  · intro himplies aligned haligned column hcolumn hgiven
    obtain ⟨hwritable, homits, _⟩ := hok.1 ⟨aligned, haligned⟩
    rw [eq_restrict_of_normalizeRow haligned] at hgiven
    rw [Bool.eq_false_iff]
    intro hkind
    exact homits (himplies hwritable (halways.1 ⟨column, hcolumn, hgiven, hkind⟩))

/-- **When admission is right.** The row has the conflict keys. If these are columns that rows give
values to, it leaves out a column that is NOT NULL without any default, and is refused for good
reason; or it leaves out an identity just if it leaves out a column that is NOT NULL with a default
that is NULL, and gives no value to an identity that is always generated unless it leaves another
out. If the conflict keys are not such columns, it leaves out nothing that would be missing. -/
theorem admission_iff (hnodup : (columns.map TableColumn.name).Nodup)
    (hkeys : ∀ k ∈ cfg.conflictKeys, k ∈ row.keys) :
    Admits cfg columns row
      ↔ (KeysWritable cfg columns → Omits columns row IsRequired
          ∨ (Omits columns row IsIdentity ↔ Omits columns row HasNullDefault)
            ∧ (GivesAlways columns row → Omits columns row IsIdentity))
        ∧ (¬ KeysWritable cfg columns →
          ¬ Omits columns row IsRequired ∧ ¬ Omits columns row HasNullDefault) := by
  have hrequired := normalizeRow_required_iff hload hkeys
  have haccepted := accepted_iff hload hnodup hkeys
  have hviolates := @violatesNotNull_iff κ ν _ cfg columns row hload
  have hadmits : Admits cfg columns row ↔ (KeysWritable cfg columns
        ∧ (Omits columns row IsRequired ∨ Omits columns row IsIdentity)
        ↔ Omits columns row IsRequired ∨ Omits columns row HasNullDefault)
      ∧ (KeysWritable cfg columns → GivesAlways columns row →
        Omits columns row IsRequired ∨ Omits columns row IsIdentity) := by
    rw [← hrequired, ← hviolates, ← haccepted]
    exact ⟨fun h => ⟨h.required_iff, h.accepted⟩, fun h => ⟨h.1, h.2⟩⟩
  rw [hadmits]
  by_cases hwritable : KeysWritable cfg columns
  · by_cases homits : Omits columns row IsRequired
    · simp [hwritable, homits]
    · simp [hwritable, homits]
  · simp [hwritable]

end Loaded

/-! ## Invoices -/

/-- A column that is numbered. -/
def numbered (kind : ColumnKind ℕ) (h : kind = .serial ∨ ∃ always, kind = .identity always) :
    TableColumn String ℕ where
  name := "id"
  notNull := true
  kind := kind
  defaultText := if kind = .serial then some "nextval('invoices_id_seq'::regclass)" else none
  reported := by
    rcases h with rfl | ⟨always, rfl⟩ <;> rfl
  identity_notNull _ _ := rfl

/-- The other columns: a number that is required, and a note. -/
def required : TableColumn String ℕ where
  name := "number"
  notNull := true
  kind := .plain none
  defaultText := none
  reported := by rintro ⟨⟩
  identity_notNull _ _ := rfl

def note : TableColumn String ℕ where
  name := "note"
  notNull := false
  kind := .plain none
  defaultText := none
  reported := by rintro ⟨⟩
  identity_notNull := by rintro _ ⟨⟩

/-- A writer for a table of these columns. -/
def invoices (columns : List (TableColumn String ℕ)) : WriteConfig String ℕ where
  conflictKeys := ["number"]
  policy := .alignToTarget
  targetColumns := columns.map (fun column => targetColumn column.catalogued)

def invoiceRow : Row String ℕ := AList.insert "number" (some 7) ∅

theorem loadTargetColumns_invoices (id : TableColumn String ℕ) :
    loadTargetColumns ([id, required, note].map TableColumn.catalogued)
      = .ok (invoices [id, required, note]).targetColumns := rfl

theorem keysWritable_invoices (id : TableColumn String ℕ) :
    KeysWritable (invoices [id, required, note]) [id, required, note] := by
  intro k hk
  rw [List.mem_singleton.1 hk]
  exact ⟨required, by simp, rfl, rfl⟩

/-- A row without its serial column and its note is right to be aligned. -/
theorem admission_invoices :
    Admits (invoices [numbered .serial (.inl rfl), required, note])
      [numbered .serial (.inl rfl), required, note] invoiceRow := by
  refine (admission_iff (loadTargetColumns_invoices _) (by decide) (by decide)).2
    ⟨fun _ => .inr ?_, fun hnot => absurd (keysWritable_invoices _) hnot⟩
  simp [Omits, IsIdentity, HasNullDefault, GivesAlways, numbered, required, note, invoiceRow]

/-- **A row without its identity is refused**, though the database would number it. -/
theorem admission_identity_ne :
    ¬ ∀ (cfg : WriteConfig String ℕ) (columns : List (TableColumn String ℕ)) (row : Row String ℕ),
      loadTargetColumns (columns.map TableColumn.catalogued) = .ok cfg.targetColumns →
      (columns.map TableColumn.name).Nodup → (∀ k ∈ cfg.conflictKeys, k ∈ row.keys) →
      Admits cfg columns row := by
  intro hall
  have hadmits := hall (invoices [numbered (.identity false) (.inr ⟨false, rfl⟩), required, note])
    [numbered (.identity false) (.inr ⟨false, rfl⟩), required, note] invoiceRow
    (loadTargetColumns_invoices _) (by decide) (by decide)
  have hrefused := hadmits.required_iff.1 ((normalizeRow_required_iff (loadTargetColumns_invoices _)
    (by decide)).2 ⟨keysWritable_invoices _, .inr ⟨_, List.mem_cons_self, by decide, false, rfl⟩⟩)
  rw [violatesNotNull_iff (loadTargetColumns_invoices _)] at hrefused
  revert hrefused
  simp [Omits, IsRequired, HasNullDefault, numbered, required, note, invoiceRow]

end WriteConfig

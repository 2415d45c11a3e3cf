import EventPipeline.Program.Migration

/-!
# Fresh and migrated schemas

`create_all` on a database without an `idempotency_keys` table creates `reconcile_count` as
NOT NULL without a DEFAULT clause, and the ALTER statement then does nothing, because the
column exists. The INSERT of the consumer does not name the column, so the database rejects
every event. On a table from before the column the ALTER statement adds the DEFAULT clause.
-/

set_option autoImplicit false

namespace EventPipeline.Analysis

open EventPipeline.Model EventPipeline.Program EventPipeline.Computation

/-! ## Databases and agreement -/

/-- The columns of `idempotency_keys` before `reconcile_count`. -/
def oldColumns : List (Column ColumnName SqlValue) :=
  ((ormColumns .idempotencyKeys).filter fun c => c.name ≠ .reconcileCount).map OrmColumn.ddl

def countColumn (default : Option SqlValue) : Column ColumnName SqlValue :=
  ⟨.reconcileCount, SqlType.integer.accepts, false, default⟩

/-- An `idempotency_keys` table from before the column, or with the column as `CREATE TABLE`
or the ALTER statement declares it; it holds any rows. -/
structure StartableTable (t : SqlTable) : Prop where
  key : t.key = .messageId
  columns : t.columns = oldColumns ∨
    ∃ default, (default = none ∨ default = some (.int 0)) ∧
      t.columns = oldColumns ++ [countColumn default]

def Startable (db : Database) : Prop := ∀ t ∈ db .idempotencyKeys, StartableTable t

/-- The table `t` takes the event and stores the count 0. -/
def TakesEvent (t : SqlTable) (ev : NewEvent) (now : Time) : Prop :=
  ∃ t', insertIdempotencyKey ev now t = .inserted t' ∧
    ∃ r ∈ t'.rows, r .messageId = some (.text ev.messageId) ∧ r .reconcileCount = some (.int 0)

/-- After `n` runs of `create_all` on `db` the INSERT of the new event `ev` works, and every old
row has a count. -/
def SchemasAgree (n : ℕ) (db : Database) (ev : NewEvent) (now : Time) : Prop :=
  ∃ db' t', createAllRuns n db = some db' ∧ db' .idempotencyKeys = some t' ∧
    TakesEvent t' ev now ∧
    ∀ t ∈ db .idempotencyKeys, ∀ r ∈ t.rows,
      ∃ r' ∈ t'.rows, r' .messageId = r .messageId ∧ r' .reconcileCount ≠ none

/-! ## When it holds -/

/-- The table exists before `create_all` runs, and its column `reconcile_count`, if it has
one, has the default 0. -/
def HasDefault (db : Database) : Prop :=
  ∃ t ∈ db .idempotencyKeys, ∀ c ∈ t.columns, c.name = .reconcileCount →
    c.default = some (.int 0)

def Storable (ev : NewEvent) : Prop :=
  Json.varcharAccepts 255 ev.messageId = true ∧ Json.varcharAccepts 255 ev.eventType = true ∧
    ev.payload.jsonbAccepts = true

/-- These are the values that the INSERT of the consumer model takes. -/
theorem storable_iff_insertValues (ev : NewEvent) : Storable ev ↔
    insertValues ⟨.str ev.messageId, .str ev.eventType, ev.payload⟩ = some ev := by
  unfold Storable insertValues
  simp only [← Bool.and_eq_true, ← Bool.and_assoc]
  split
  · rename_i h
    exact iff_of_true h rfl
  · rename_i h
    exact iff_of_false h nofun

/-! ## `create_all` -/

/-- The table that `create_all` leaves: the ALTER statement on the table, or on a new one. -/
theorem createAll_eq (db : Database) :
    createAll db = (((db .idempotencyKeys).getD (createTable .idempotencyKeys)).addColumnIfNotExists
      (countColumn (some (.int 0)))).map fun t =>
        Function.update (metadataCreateAll db) .idempotencyKeys (some t) := by
  unfold createAll applyMigrations columnMigrations
  rw [List.foldlM_cons]
  simp only [List.foldlM_nil, Option.bind_eq_bind, Option.pure_def, Option.bind_fun_some]
  rfl

/-- A second run of `create_all` changes nothing. -/
theorem createAll_idem {db db' : Database} (h : createAll db = some db') :
    createAll db' = some db' := by
  rw [createAll_eq] at h
  obtain ⟨t, ht, rfl⟩ := Option.map_eq_some_iff.1 h
  have hall : metadataCreateAll (Function.update (metadataCreateAll db) .idempotencyKeys (some t)) =
      Function.update (metadataCreateAll db) .idempotencyKeys (some t) := by
    funext n
    by_cases hn : n = .idempotencyKeys
    · subst hn
      simp [metadataCreateAll]
    · simp [metadataCreateAll, Function.update_of_ne hn]
  rw [createAll_eq, Function.update_self, Option.getD_some,
    Relation.addColumnIfNotExists_idem ht, hall, Option.map_some, Function.update_idem]

/-- So any number of runs leaves what one run leaves. -/
theorem createAllRuns_succ {db db' : Database} (h : createAll db = some db') (n : ℕ) :
    createAllRuns (n + 1) db = some db' := by
  have key : ∀ n, createAllRuns n db' = some db' := by
    intro n
    induction n with
    | zero => rfl
    | succ n ih =>
      exact run_cons_eq_some.2 ⟨db', createAll_idem h, ih⟩
  exact run_cons_eq_some.2 ⟨db', h, key n⟩

/-- What `create_all` makes of `idempotency_keys`: the column `reconcile_count` has the DEFAULT
clause `default`, and the rows keep their identity and have a count. -/
structure CreateAllTable (db : Database) (t' : SqlTable) (default : Option SqlValue) : Prop where
  createAll : createAll db =
    some (Function.update (metadataCreateAll db) .idempotencyKeys (some t'))
  key : t'.key = .messageId
  columns : t'.columns = oldColumns ++ [countColumn default]
  default : (default = none ∧ ¬ HasDefault db) ∨ (default = some (.int 0) ∧ HasDefault db)
  ids : t'.rows.map (fun r => r .messageId) =
    ((db .idempotencyKeys).elim [] Relation.rows).map fun r => r .messageId

/-- `create_all` on a database whose table has the column, or has just got it. -/
theorem createAll_of_mem {db : Database} {t : SqlTable}
    (ht : (db .idempotencyKeys).getD (createTable .idempotencyKeys) = t)
    (hmem : ColumnName.reconcileCount ∈ t.columns.map Column.name) :
    createAll db = some (Function.update (metadataCreateAll db) .idempotencyKeys (some t)) := by
  rw [createAll_eq, ht, Relation.addColumnIfNotExists_of_mem hmem, Option.map_some]

/-- `CREATE TABLE` makes the column, without a DEFAULT clause. -/
theorem createAllTable_of_none {db : Database} (hdb : db .idempotencyKeys = none) :
    CreateAllTable db (createTable .idempotencyKeys) none where
  createAll := createAll_of_mem (by rw [hdb]; rfl) (by decide)
  key := rfl
  columns := rfl
  default := by
    refine Or.inl ⟨rfl, ?_⟩
    rintro ⟨t, ht, _⟩
    rw [hdb] at ht
    cases ht
  ids := by
    rw [hdb]
    rfl

/-- On a table from before the column the ALTER statement makes it, with a DEFAULT clause. -/
theorem createAllTable_of_old {db : Database} {t : SqlTable} (hdb : db .idempotencyKeys = some t)
    (hkey : t.key = .messageId) (hcols : t.columns = oldColumns) :
    ∃ t', CreateAllTable db t' (some (.int 0)) := by
  have hnew : ColumnName.reconcileCount ∉ t.columns.map Column.name := by
    rw [hcols]
    decide
  have hadd : t.addColumnIfNotExists (countColumn (some (.int 0))) =
      some (t.addColumn (countColumn (some (.int 0))) hnew (Or.inr rfl)) :=
    Relation.addColumnIfNotExists_of_notMem hnew rfl
  refine ⟨t.addColumn (countColumn (some (.int 0))) hnew (Or.inr rfl), ?_, hkey, ?_, ?_, ?_⟩
  · rw [createAll_eq, hdb, Option.getD_some, hadd, Option.map_some]
  · rw [← hcols]
    rfl
  · refine Or.inr ⟨rfl, t, hdb, fun c hc hname => ?_⟩
    exact absurd (hname ▸ List.mem_map_of_mem hc) hnew
  · rw [hdb]
    exact List.map_map

/-- A table that has the column stays as it is. -/
theorem createAllTable_of_migrated {db : Database} {t : SqlTable} {default : Option SqlValue}
    (hdb : db .idempotencyKeys = some t) (hkey : t.key = .messageId)
    (hdefault : default = none ∨ default = some (.int 0))
    (hcols : t.columns = oldColumns ++ [countColumn default]) : CreateAllTable db t default := by
  have hmem : ColumnName.reconcileCount ∈ t.columns.map Column.name := by
    rw [hcols]
    simp [countColumn]
  have hlast : countColumn default ∈ t.columns :=
    hcols ▸ List.mem_append_right _ (List.mem_singleton_self _)
  refine ⟨createAll_of_mem (by rw [hdb]; rfl) hmem, hkey, hcols, ?_, by rw [hdb]; rfl⟩
  obtain rfl | rfl := hdefault
  · refine Or.inl ⟨rfl, ?_⟩
    rintro ⟨t', ht', h⟩
    have htt : t' = t := Option.some.inj (ht'.symm.trans hdb)
    subst htt
    cases h (countColumn none) hlast rfl
  · refine Or.inr ⟨rfl, t, hdb, fun c hc hname => ?_⟩
    rw [hcols] at hc
    obtain hc | hc := List.mem_append.1 hc
    · have hin : ColumnName.reconcileCount ∈ oldColumns.map Column.name :=
        hname ▸ List.mem_map_of_mem hc
      exact absurd hin (by decide)
    · rw [List.mem_singleton.1 hc]
      rfl

/-- A startable database has a table of the events with the columns of the model.
SOURCE: app/db/session.py:49-75 -/
theorem exists_createAllTable {db : Database} (hs : Startable db) :
    ∃ t' default, CreateAllTable db t' default := by
  cases hdb : db .idempotencyKeys with
  | none => exact ⟨_, _, createAllTable_of_none hdb⟩
  | some t =>
    obtain ⟨hkey, hcols | ⟨default, hdefault, hcols⟩⟩ := hs t hdb
    · obtain ⟨t', h⟩ := createAllTable_of_old hdb hkey hcols
      exact ⟨t', _, h⟩
    · exact ⟨t, default, createAllTable_of_migrated hdb hkey hdefault hcols⟩

/-! ## The INSERT -/

section
variable {t : SqlTable} {default : Option SqlValue} {ev : NewEvent} {now : Time}

/-- The row of the INSERT is the row of the consumer model, but for the count. -/
theorem fullRow_eq (hcols : t.columns = oldColumns ++ [countColumn default]) :
    t.fullRow (insertColumns ev now) =
      Function.update (newKey ev now).columns .reconcileCount default := by
  funext n
  unfold Relation.fullRow
  rw [hcols]
  cases n <;> rfl

/-- The columns admit the row exactly when the event is storable and the count has a
default. -/
theorem admits_fullRow_iff (hdefault : default = none ∨ default = some (.int 0)) :
    (∀ c ∈ oldColumns ++ [countColumn default],
      c.admits (Function.update (newKey ev now).columns .reconcileCount default c.name) = true) ↔
    default = some (.int 0) ∧ Storable ev := by
  have hstatus : Json.varcharAccepts 50 (py "received") = true := by decide
  obtain rfl | rfl := hdefault
  · simp [oldColumns, ormColumns, OrmColumn.ddl, Column.admits, countColumn,
      IdempotencyKey.columns]
  · simp [oldColumns, ormColumns, OrmColumn.ddl, Column.admits, countColumn,
      IdempotencyKey.columns, newKey, SqlType.accepts, Storable, EventStatus.text, hstatus]

/-- On a table that `create_all` has left, a new event is taken exactly when it is storable
and the count has a default. The row stored is then the one of the consumer model. -/
theorem takesEvent_iff (hkey : t.key = .messageId)
    (hcols : t.columns = oldColumns ++ [countColumn default])
    (hdefault : default = none ∨ default = some (.int 0))
    (hnew : some (.text ev.messageId) ∉ t.rows.map fun r => r .messageId) :
    TakesEvent t ev now ↔ default = some (.int 0) ∧ Storable ev := by
  have hrow : t.fullRow (insertColumns ev now) =
      Function.update (newKey ev now).columns .reconcileCount default := fullRow_eq hcols
  have hadmits : (∀ c ∈ t.columns, c.admits (t.fullRow (insertColumns ev now) c.name) = true) ↔
      default = some (.int 0) ∧ Storable ev := by
    rw [hrow, hcols]
    exact admits_fullRow_iff hdefault
  constructor
  · rintro ⟨t', hins, _⟩
    obtain ⟨hr, _, _⟩ := Relation.insertOnConflictDoNothing_eq_inserted_iff.1 hins
    exact hadmits.1 hr
  · intro h
    have hfresh : t.fullRow (insertColumns ev now) t.key ∉ t.rows.map fun r => r t.key := by
      rw [hrow, hkey]
      exact hnew
    refine ⟨_, Relation.insertOnConflictDoNothing_eq_inserted_iff.2 ⟨hadmits.2 h, hfresh, rfl⟩,
      t.fullRow (insertColumns ev now), List.mem_append_right _ (List.mem_singleton_self _), ?_⟩
    rw [hrow]
    exact ⟨rfl, h.1⟩

end

/-! ## The result -/

/-- A table from before the column, with one row. -/
def oldTable : SqlTable where
  columns := oldColumns
  key := .messageId
  rows := [Function.update (newKey ⟨py "m", py "e", .obj []⟩ 0).columns .reconcileCount none]
  columns_nodup := by decide
  key_mem := by decide
  rows_admitted := by
    intro r hr
    rw [List.mem_singleton.1 hr]
    simp [oldColumns, ormColumns, OrmColumn.ddl, Column.admits, IdempotencyKey.columns, newKey,
      SqlType.accepts, EventStatus.text]
    decide
  keys_nodup := by decide

def oldDatabase : Database := Function.update (fun _ => none) .idempotencyKeys (some oldTable)

def emptyDatabase : Database := fun _ => none

end EventPipeline.Analysis

import Mathlib.Logic.Function.Basic
import EventPipeline.Computation.Table

/-!
# Tables with declared columns

A relation is a list of column declarations with the rows stored under them. Every stored
row meets every declaration, and the primary key tells the rows apart; both are fields of
the structure. The operations are `CREATE TABLE`, `ADD COLUMN IF NOT EXISTS` and
`INSERT ... ON CONFLICT DO NOTHING` with values for some of the columns.
-/

set_option autoImplicit false

namespace EventPipeline.Computation

variable {ν V : Type}

/-- The declaration of a column. -/
structure Column (ν V : Type) where
  name : ν
  /-- whether a value is of the type of the column -/
  accepts : V → Bool
  nullable : Bool
  /-- the DEFAULT clause; without one the default is NULL -/
  default : Option V

/-- Whether a value, or NULL, may stand in the column. -/
def Column.admits (c : Column ν V) : Option V → Bool
  | none => c.nullable
  | some v => c.accepts v

structure Relation (ν V : Type) where
  columns : List (Column ν V)
  key : ν
  /-- `none` is NULL; a name that is not declared has no meaning -/
  rows : List (ν → Option V)
  columns_nodup : (columns.map Column.name).Nodup
  key_mem : key ∈ columns.map Column.name
  rows_admitted : ∀ r ∈ rows, ∀ c ∈ columns, c.admits (r c.name) = true
  keys_nodup : (rows.map fun r => r key).Nodup

namespace Relation

/-- `CREATE TABLE`. -/
def create (columns : List (Column ν V)) (key : ν) (hn : (columns.map Column.name).Nodup)
    (hk : key ∈ columns.map Column.name) : Relation ν V where
  columns := columns
  key := key
  rows := []
  columns_nodup := hn
  key_mem := hk
  rows_admitted _ h := absurd h List.not_mem_nil
  keys_nodup := List.nodup_nil

section
variable [DecidableEq ν]

/-- The columns and rows after `ADD COLUMN`: every row has the default in the new column. -/
def addColumn (t : Relation ν V) (c : Column ν V) (hnew : c.name ∉ t.columns.map Column.name)
    (hfill : t.rows = [] ∨ c.admits c.default = true) : Relation ν V where
  columns := t.columns ++ [c]
  key := t.key
  rows := t.rows.map fun r => Function.update r c.name c.default
  columns_nodup := by
    rw [List.map_append]
    exact List.Nodup.append t.columns_nodup (List.nodup_singleton _)
      (List.disjoint_singleton.2 hnew)
  key_mem := by
    rw [List.map_append]
    exact List.mem_append_left _ t.key_mem
  rows_admitted := by
    intro r' hr' c' hc'
    obtain ⟨r, hr, rfl⟩ := List.mem_map.1 hr'
    obtain hc' | hc' := List.mem_append.1 hc'
    · have hne : c'.name ≠ c.name := fun h => hnew (h ▸ List.mem_map_of_mem hc')
      rw [Function.update_of_ne hne]
      exact t.rows_admitted r hr c' hc'
    · rw [List.mem_singleton.1 hc', Function.update_self]
      exact hfill.resolve_left (List.ne_nil_of_mem hr)
  keys_nodup := by
    have hne : t.key ≠ c.name := fun h => hnew (h ▸ t.key_mem)
    rw [List.map_map]
    simpa only [Function.comp_def, Function.update_of_ne hne] using t.keys_nodup

/-- `ADD COLUMN IF NOT EXISTS`; `none` when a stored row cannot take the default. -/
def addColumnIfNotExists (t : Relation ν V) (c : Column ν V) : Option (Relation ν V) :=
  if h : c.name ∈ t.columns.map Column.name then some t
  else if hfill : t.rows = [] ∨ c.admits c.default = true then some (t.addColumn c h hfill)
  else none

/-- The row that an INSERT with values for the columns `given` stores. -/
def fullRow (t : Relation ν V) (given : List (ν × Option V)) (n : ν) : Option V :=
  match lookup Prod.fst n given with
  | some p => p.2
  | none => (lookup Column.name n t.columns).bind Column.default

end

/-- How an INSERT with ON CONFLICT DO NOTHING ends. -/
inductive InsertResult (ν V : Type) where
  /-- a column does not admit its value -/
  | rejected
  /-- the key exists -/
  | conflict
  | inserted (t : Relation ν V)

/-- The table with one more row. -/
def append (t : Relation ν V) (r : ν → Option V)
    (hr : ∀ c ∈ t.columns, c.admits (r c.name) = true)
    (hk : r t.key ∉ t.rows.map fun r => r t.key) : Relation ν V where
  columns := t.columns
  key := t.key
  rows := t.rows ++ [r]
  columns_nodup := t.columns_nodup
  key_mem := t.key_mem
  rows_admitted := by
    intro r' hr'
    obtain hr' | hr' := List.mem_append.1 hr'
    · exact t.rows_admitted r' hr'
    · exact List.mem_singleton.1 hr' ▸ hr
  keys_nodup := by
    rw [List.map_append]
    exact List.Nodup.append t.keys_nodup (List.nodup_singleton _) (List.disjoint_singleton.2 hk)

variable [DecidableEq ν] [DecidableEq V]

/-- `INSERT ... ON CONFLICT (key) DO NOTHING`. The declarations are checked first. -/
def insertOnConflictDoNothing (t : Relation ν V) (given : List (ν × Option V)) :
    InsertResult ν V :=
  if hr : ∀ c ∈ t.columns, c.admits (t.fullRow given c.name) = true then
    if hk : t.fullRow given t.key ∈ t.rows.map fun r => r t.key then .conflict
    else .inserted (t.append (t.fullRow given) hr hk)
  else .rejected

/-! ### The rules -/

variable {t t' : Relation ν V} {c : Column ν V} {given : List (ν × Option V)}

omit [DecidableEq V] in
/-- Nothing happens when the column exists. -/
theorem addColumnIfNotExists_of_mem (h : c.name ∈ t.columns.map Column.name) :
    t.addColumnIfNotExists c = some t := dif_pos h

omit [DecidableEq V] in
/-- A new column is added when its default may stand in it. -/
theorem addColumnIfNotExists_of_notMem (h : c.name ∉ t.columns.map Column.name)
    (hfill : c.admits c.default = true) :
    t.addColumnIfNotExists c = some (t.addColumn c h (Or.inr hfill)) := by
  unfold addColumnIfNotExists
  rw [dif_neg h, dif_pos (Or.inr hfill)]

omit [DecidableEq V] in
/-- Once executed, the statement changes nothing any more. -/
theorem addColumnIfNotExists_idem (h : t.addColumnIfNotExists c = some t') :
    t'.addColumnIfNotExists c = some t' := by
  apply addColumnIfNotExists_of_mem
  unfold addColumnIfNotExists at h
  split at h
  · rename_i hmem
    cases h
    exact hmem
  · split at h
    · cases h
      exact List.mem_map_of_mem (List.mem_append_right _ (List.mem_singleton_self c))
    · cases h

/-- An INSERT stores its row exactly when every column admits it and the key is new. -/
theorem insertOnConflictDoNothing_eq_inserted_iff :
    t.insertOnConflictDoNothing given = .inserted t' ↔
      ∃ (hr : ∀ c ∈ t.columns, c.admits (t.fullRow given c.name) = true)
        (hk : t.fullRow given t.key ∉ t.rows.map fun r => r t.key),
        t' = t.append (t.fullRow given) hr hk := by
  unfold insertOnConflictDoNothing
  split
  · rename_i hr
    split
    · rename_i hk
      exact iff_of_false nofun fun ⟨_, h, _⟩ => h hk
    · rename_i hk
      constructor
      · intro h
        cases h
        exact ⟨hr, hk, rfl⟩
      · rintro ⟨_, _, rfl⟩
        rfl
  · rename_i hr
    exact iff_of_false nofun fun ⟨h, _⟩ => hr h

end Relation

end EventPipeline.Computation

import Mathlib.Data.List.Nodup
import Mathlib.Tactic.Common

/-!
# Tables

A table is a list of rows. `updateWhere` is `UPDATE ... WHERE`, `lookup` is a `SELECT` by
the value of a column. A column that the update does not assign keeps its values, row by
row, so a uniqueness constraint on it survives the update.
-/

set_option autoImplicit false

namespace EventPipeline.Computation

variable {ρ κ ι : Type}

/-- Apply `f` to the rows that satisfy `p`, leave the others. -/
def updateWhere (p : ρ → Prop) [DecidablePred p] (f : ρ → ρ) (t : List ρ) : List ρ :=
  t.map fun r => if p r then f r else r

/-- The first row whose column `key` has the value `k`. -/
def lookup [DecidableEq κ] (key : ρ → κ) (k : κ) (t : List ρ) : Option ρ :=
  t.find? fun r => key r = k

section
variable {p : ρ → Prop} [DecidablePred p] {f : ρ → ρ} {t : List ρ}

/-- The rows after an UPDATE are the old rows, each updated where the condition holds. -/
theorem mem_updateWhere {r' : ρ} :
    r' ∈ updateWhere p f t ↔ ∃ r ∈ t, (if p r then f r else r) = r' := by
  simp [updateWhere]

/-- Every row of the updated table is an old row that did not match or the image of one
that did. -/
theorem of_mem_updateWhere {r' : ρ} (h : r' ∈ updateWhere p f t) :
    (r' ∈ t ∧ ¬ p r') ∨ ∃ r ∈ t, p r ∧ f r = r' := by
  obtain ⟨r, hr, rfl⟩ := mem_updateWhere.1 h
  by_cases hp : p r
  · exact Or.inr ⟨r, hr, hp, by rw [if_pos hp]⟩
  · rw [if_neg hp]
    exact Or.inl ⟨hr, hp⟩

/-- A column that `f` does not assign keeps its values. -/
theorem map_updateWhere (g : ρ → ι) (hg : ∀ r, p r → g (f r) = g r) :
    (updateWhere p f t).map g = t.map g := by
  rw [updateWhere, List.map_map]
  apply List.map_congr_left
  intro r _
  by_cases hp : p r
  · simp [hp, hg r hp]
  · simp [hp]

/-- An update of the rows is an update of their images, where it is so for the rows that match. -/
theorem map_updateWhere_comm_of_mem {σ : Type} (g : ρ → σ) {q : σ → Prop} [DecidablePred q]
    {f' : σ → σ} (hp : ∀ r, p r ↔ q (g r)) (hf : ∀ r ∈ t, p r → g (f r) = f' (g r)) :
    (updateWhere p f t).map g = updateWhere q f' (t.map g) := by
  rw [updateWhere, updateWhere, List.map_map, List.map_map]
  refine List.map_congr_left fun r hr => ?_
  show g (if p r then f r else r) = if q (g r) then f' (g r) else g r
  by_cases h : p r
  · rw [if_pos h, if_pos ((hp r).1 h), hf r hr h]
  · rw [if_neg h, if_neg fun hq => h ((hp r).2 hq)]

/-- An update of the rows is an update of their images. -/
theorem map_updateWhere_comm {σ : Type} (g : ρ → σ) {q : σ → Prop} [DecidablePred q] {f' : σ → σ}
    (hp : ∀ r, p r ↔ q (g r)) (hf : ∀ r, g (f r) = f' (g r)) :
    (updateWhere p f t).map g = updateWhere q f' (t.map g) :=
  map_updateWhere_comm_of_mem g hp fun r _ _ => hf r

/-- The update seen from an old row: its new version is in the new table. -/
theorem mem_updateWhere_of_mem {r : ρ} (hr : r ∈ t) :
    (if p r then f r else r) ∈ updateWhere p f t :=
  mem_updateWhere.2 ⟨r, hr, rfl⟩

/-- A row that meets the condition is there in its new version. -/
theorem mem_updateWhere_of_pos {r : ρ} (hr : r ∈ t) (hp : p r) : f r ∈ updateWhere p f t :=
  mem_updateWhere.2 ⟨r, hr, if_pos hp⟩

/-- A row that does not meet the condition is still there. -/
theorem mem_updateWhere_of_not {r : ρ} (hr : r ∈ t) (hp : ¬ p r) : r ∈ updateWhere p f t :=
  mem_updateWhere.2 ⟨r, hr, if_neg hp⟩

/-- An update that finds no row. -/
theorem updateWhere_of_forall_not (h : ∀ r ∈ t, ¬ p r) : updateWhere p f t = t :=
  (List.map_congr_left fun r hr => if_neg (h r hr)).trans (List.map_id t)

end

section
variable [DecidableEq κ] {key : ρ → κ} {k : κ} {t : List ρ} {r r' : ρ}

/-- A row that is found is in the table and has the key. -/
theorem of_lookup_eq_some (h : lookup key k t = some r) : r ∈ t ∧ key r = k :=
  ⟨List.mem_of_find?_eq_some h, by simpa using List.find?_some h⟩

/-- Rows that are looked up by key have the keys of the list, in its order, as far as they are
in the table. -/
theorem map_key_lookup (ks : List κ) :
    (ks.filterMap fun k => lookup key k t).map key =
      ks.filter fun k => (lookup key k t).isSome := by
  induction ks with
  | nil => rfl
  | cons k ks ih =>
    cases h : lookup key k t with
    | none => simp [h, ih]
    | some r => simp [h, ih, (of_lookup_eq_some h).2]

/-- A lookup in a mapped table is a lookup before the mapping. -/
theorem lookup_map {σ : Type} (f : σ → ρ) (t : List σ) :
    lookup key k (t.map f) = (lookup (fun r => key (f r)) k t).map f := List.find?_map

/-- An UPDATE that does not assign the key, seen through a look-up. -/
theorem lookup_updateWhere {p : ρ → Prop} [DecidablePred p] {f : ρ → ρ}
    (hf : ∀ r, p r → key (f r) = key r) (t : List ρ) :
    lookup key k (updateWhere p f t) =
      (lookup key k t).map fun r => if p r then f r else r := by
  have hkey : (fun r => key (if p r then f r else r)) = key := by
    funext r
    by_cases hp : p r
    · rw [if_pos hp, hf r hp]
    · rw [if_neg hp]
  rw [updateWhere, lookup_map, hkey]

/-- A look-up does not see the update of other rows. -/
theorem lookup_updateWhere_of_not {p : ρ → Prop} [DecidablePred p] {f : ρ → ρ}
    (hf : ∀ r, p r → key (f r) = key r) (hp : ∀ r, key r = k → ¬ p r) :
    lookup key k (updateWhere p f t) = lookup key k t := by
  rw [lookup_updateWhere hf]
  cases hl : lookup key k t with
  | none => rfl
  | some r => rw [Option.map_some, if_neg (hp r (of_lookup_eq_some hl).2)]

omit [DecidableEq κ] in
/-- Under a uniqueness constraint the key determines the row. -/
theorem eq_of_key_eq (hn : (t.map key).Nodup) (hr : r ∈ t) (hr' : r' ∈ t)
    (h : key r = key r') : r = r' :=
  List.inj_on_of_nodup_map hn hr hr' h

/-- A look-up finds a row exactly when the key is in the column. -/
theorem isSome_lookup_iff : (lookup key k t).isSome = true ↔ k ∈ t.map key := by
  simp [lookup, List.find?_isSome, List.mem_map]

/-- A uniqueness constraint makes a look-up by key exact. -/
theorem lookup_of_mem (hn : (t.map key).Nodup) (hr : r ∈ t) : lookup key (key r) t = some r := by
  have hsome : (lookup key (key r) t).isSome = true :=
    isSome_lookup_iff.2 (List.mem_map_of_mem hr)
  obtain ⟨r', h⟩ := Option.isSome_iff_exists.1 hsome
  obtain ⟨hr', heq⟩ := of_lookup_eq_some h
  rw [h, eq_of_key_eq hn hr' hr heq]

/-- A new row is found by its key. -/
theorem lookup_append_new (h : key r ∉ t.map key) : lookup key (key r) (t ++ [r]) = some r := by
  have hnone : t.find? (fun x => key x = key r) = none := by
    refine List.find?_eq_none.2 fun x hx heq => h ?_
    exact of_decide_eq_true heq ▸ List.mem_map_of_mem hx
  simp [lookup, List.find?_append, hnone]

end

/-! ## Rows that were added -/

/-- The rows of `t'` whose key is not in `t`. -/
def addedRows [DecidableEq κ] (key : ρ → κ) (t t' : List ρ) : List ρ :=
  t'.filter fun r => key r ∉ t.map key

section
variable [DecidableEq κ] {key : ρ → κ} {t t' : List ρ}

/-- Where the keys stay the same no row is added. -/
theorem addedRows_of_map_eq (h : t'.map key = t.map key) : addedRows key t t' = [] := by
  refine List.filter_eq_nil_iff.2 fun r hr hnew => ?_
  exact absurd (h ▸ List.mem_map_of_mem hr) (of_decide_eq_true hnew)

/-- An INSERT that keeps a uniqueness constraint adds just the keys that it appends. -/
theorem map_addedRows {ks : List κ} (h : t'.map key = t.map key ++ ks)
    (hn : (t'.map key).Nodup) : (addedRows key t t').map key = ks := by
  have hks : ∀ k ∈ ks, decide (k ∉ t.map key) = true := fun k hk =>
    decide_eq_true fun hmem => List.disjoint_of_nodup_append (h ▸ hn) hmem hk
  have hold : ∀ k ∈ t.map key, ¬ decide (k ∉ t.map key) = true := fun k hk hnew =>
    of_decide_eq_true hnew hk
  calc (addedRows key t t').map key
      = (t'.map key).filter fun k => k ∉ t.map key := by rw [List.filter_map]; rfl
    _ = ks := by
        rw [h, List.filter_append, List.filter_eq_nil_iff.2 hold, List.filter_eq_self.2 hks,
          List.nil_append]

end

end EventPipeline.Computation

import Mathlib.Algebra.BigOperators.Group.List.Lemmas
import Mathlib.Algebra.Order.Ring.Nat
import Mathlib.Data.List.Dedup

/-!
# Queries that count, order and page

`groupCounts` is `SELECT key, count(*) ... GROUP BY key`. `IsOrdered` is `ORDER BY key` and
`IsPage` is `ORDER BY key DESC LIMIT n`; a query gives no order to rows with the same key, and the
limit may cut between them, so an answer is not determined by the table.
-/

set_option autoImplicit false

namespace EventPipeline.Computation

variable {ρ κ : Type}

/-! ## Counting by group -/

section
variable [DecidableEq κ] {key : ρ → κ} {t : List ρ}

/-- The values of `key` that occur, each with the number of its rows. -/
def groupCounts (key : ρ → κ) (t : List ρ) : List (κ × ℕ) :=
  (t.map key).dedup.map fun k => (k, (t.map key).count k)

/-- A group is a key that occurs, with the number of its rows. -/
theorem mem_groupCounts {k : κ} {n : ℕ} :
    (k, n) ∈ groupCounts key t ↔ k ∈ t.map key ∧ n = (t.map key).count k := by
  unfold groupCounts
  rw [List.mem_map]
  constructor
  · rintro ⟨k', hk', heq⟩
    cases heq
    exact ⟨List.mem_dedup.1 hk', rfl⟩
  · rintro ⟨hk, rfl⟩
    exact ⟨k, List.mem_dedup.2 hk, rfl⟩

/-- A group is listed once. -/
theorem groupCounts_nodup : ((groupCounts key t).map Prod.fst).Nodup := by
  rw [groupCounts, List.map_map]
  exact (List.map_id _).symm ▸ (List.nodup_dedup (t.map key))

/-- Every row is counted once. -/
theorem sum_groupCounts : ((groupCounts key t).map Prod.snd).sum = t.length := by
  rw [groupCounts, List.map_map]
  exact (List.sum_map_count_dedup_eq_length (t.map key)).trans (List.length_map _)

/-- A group that is listed has a row. -/
theorem pos_of_mem_groupCounts {k : κ} {n : ℕ} (h : (k, n) ∈ groupCounts key t) : 0 < n := by
  obtain ⟨hk, rfl⟩ := mem_groupCounts.1 h
  exact List.count_pos_iff.2 hk

end

/-! ## Rows against a log -/

/-- Rows with distinct keys, each with an entry of kind `c` in a log, are no more than the entries
of that kind. -/
theorem countP_le_count {ο : Type} [BEq ο] [LawfulBEq ο] {t : List ρ} {key : ρ → κ} {p : ρ → Bool}
    {log : List (κ × ο)} {c : ο} (hn : (t.map key).Nodup)
    (h : ∀ r ∈ t, p r = true → (key r, c) ∈ log) :
    t.countP p ≤ (log.map Prod.snd).count c := by
  have hsub : (t.filter p).map key ⊆ (log.filter fun e => e.2 == c).map Prod.fst := by
    intro k hk
    obtain ⟨r, hr, rfl⟩ := List.mem_map.1 hk
    obtain ⟨hr, hp⟩ := List.mem_filter.1 hr
    exact List.mem_map.2 ⟨(key r, c), List.mem_filter.2 ⟨h r hr hp, by simp⟩, rfl⟩
  have hnodup : ((t.filter p).map key).Nodup := hn.sublist (List.filter_sublist.map key)
  have hlen := (List.subperm_of_subset hnodup hsub).length_le
  rw [List.length_map, List.length_map, ← List.countP_eq_length_filter,
    ← List.countP_eq_length_filter] at hlen
  rw [List.count, List.countP_map]
  exact hlen

/-! ## Ordering -/

/-- `rows` is an answer to `ORDER BY key` on the rows `t`. -/
structure IsOrdered (key : ρ → ℕ) (t rows : List ρ) : Prop where
  perm : rows.Perm t
  sorted : rows.Pairwise fun x y => key x ≤ key y

/-- There is always an answer. -/
theorem exists_isOrdered (key : ρ → ℕ) (t : List ρ) : ∃ rows, IsOrdered key t rows := by
  refine ⟨t.mergeSort fun x y => key x ≤ key y, List.mergeSort_perm _ _, ?_⟩
  refine (List.pairwise_mergeSort ?_ ?_ t).imp fun h => of_decide_eq_true h
  · intro x y z hxy hyz
    simp only [decide_eq_true_eq] at hxy hyz ⊢
    exact Nat.le_trans hxy hyz
  · intro x y
    simpa using Nat.le_total (key x) (key y)

/-! ## Paging -/

/-- `page` is an answer to `ORDER BY key DESC LIMIT n` on the rows `t`. -/
structure IsPage (key : ρ → ℕ) (n : ℕ) (t page : List ρ) : Prop where
  length : page.length = min n t.length
  sorted : page.Pairwise fun x y => key y ≤ key x
  top : ∃ rest, (page ++ rest).Perm t ∧ ∀ x ∈ page, ∀ y ∈ rest, key y ≤ key x

section
variable {key : ρ → ℕ} {n : ℕ} {t page : List ρ}

/-- There is always an answer. -/
theorem exists_isPage (key : ρ → ℕ) (n : ℕ) (t : List ρ) : ∃ page, IsPage key n t page := by
  obtain ⟨rows, hperm, hsorted⟩ := exists_isOrdered key t
  have hperm' : rows.reverse.Perm t := (List.reverse_perm rows).trans hperm
  have hsorted' : rows.reverse.Pairwise fun x y => key y ≤ key x := List.pairwise_reverse.2 hsorted
  refine ⟨rows.reverse.take n, ?_, hsorted'.take, rows.reverse.drop n, ?_, ?_⟩
  · rw [List.length_take, hperm'.length_eq]
  · rwa [List.take_append_drop]
  · rw [← List.take_append_drop n rows.reverse] at hsorted'
    exact (List.pairwise_append.1 hsorted').2.2

/-- A page has rows of the table only, and none of them twice. -/
theorem IsPage.subset (h : IsPage key n t page) : page ⊆ t := by
  obtain ⟨rest, hperm, _⟩ := h.top
  exact fun x hx => hperm.subset (List.mem_append_left _ hx)

/-- A page repeats nothing that the table does not repeat. -/
theorem IsPage.nodup_map {g : ρ → κ} (h : IsPage key n t page) (hn : (t.map g).Nodup) :
    (page.map g).Nodup := by
  obtain ⟨rest, hperm, _⟩ := h.top
  have hall : ((page ++ rest).map g).Nodup := (hperm.map g).nodup_iff.2 hn
  rw [List.map_append] at hall
  exact hall.of_append_left

/-- A limit that is large enough cuts nothing off. -/
theorem IsPage.perm (h : IsPage key n t page) (hn : t.length ≤ n) : page.Perm t := by
  obtain ⟨rest, hperm, _⟩ := h.top
  have hlen := hperm.length_eq
  rw [List.length_append, h.length, Nat.min_eq_right hn] at hlen
  obtain rfl : rest = [] := List.eq_nil_of_length_eq_zero (by omega)
  rwa [List.append_nil] at hperm

end

end EventPipeline.Computation

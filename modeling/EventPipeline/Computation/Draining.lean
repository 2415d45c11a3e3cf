import Mathlib.Algebra.Order.BigOperators.Group.Finset
import EventPipeline.Computation.Transition

/-!
# Systems that drain

A system has items of work, each with a weight: what is left to do for it. Some steps bring
new work, the others use work up: such a step lowers the weight of one item and leaves the
others alone. A run without new work is then no longer than the work that is left, whatever
order it chooses. When moreover a state with work left is never stuck, every such run that
cannot go on ends with no work left.
-/

set_option autoImplicit false

namespace EventPipeline.Computation

variable {σ α ι : Type} {step : σ → α → Option σ} {w : σ → ι → ℕ} {C : α → Prop}

/-- The step is about item `i`. -/
def KeepsOthers (w : σ → ι → ℕ) (s s' : σ) (i : ι) : Prop := ∀ j, j ≠ i → w s' j = w s j

/-- Every step that meets `C` uses up a part of one item. -/
def UsesUp (step : σ → α → Option σ) (C : α → Prop) (w : σ → ι → ℕ) : Prop :=
  ∀ s a s', C a → step s a = some s' → ∃ i, w s' i < w s i ∧ KeepsOthers w s s' i

/-- Every step is about one item at most. -/
def Moves (step : σ → α → Option σ) (w : σ → ι → ℕ) : Prop :=
  ∀ s a s', step s a = some s' → ∃ i, KeepsOthers w s s' i

/-- There is no work outside `D`. -/
def Within (w : σ → ι → ℕ) (s : σ) (D : Finset ι) : Prop := ∀ i, i ∉ D → w s i = 0

/-- In every reachable state finitely many items have work left. -/
theorem exists_within [DecidableEq ι] {s₀ s : σ} (hmoves : Moves step w) (h₀ : ∀ i, w s₀ i = 0)
    (h : Reachable step s₀ s) : ∃ D, Within w s D := by
  refine h.induct (I := fun s => ∃ D, Within w s D) ⟨∅, fun i _ => h₀ i⟩ ?_
  rintro s a s' _ ⟨D, hD⟩ hs
  obtain ⟨i, hi⟩ := hmoves s a s' hs
  refine ⟨insert i D, fun j hj => ?_⟩
  obtain ⟨hne, hj⟩ := not_or.1 (fun h => hj (Finset.mem_insert.2 h))
  rw [hi j hne]
  exact hD j hj

/-! ## The bound on a run -/

/-- The work on the items of `S` gets less in all, and the other items are left alone. -/
def LowersOn (w : σ → ι → ℕ) (s s' : σ) (S : Finset ι) : Prop :=
  ∑ i ∈ S, w s' i < ∑ i ∈ S, w s i ∧ ∀ j, j ∉ S → w s' j = w s j

/-- A step that lowers the weight of one process and keeps the others lowers that set. -/
theorem KeepsOthers.lowersOn {s s' : σ} {i : ι} (h : KeepsOthers w s s' i)
    (hlt : w s' i < w s i) : LowersOn w s s' {i} := by
  refine ⟨by rwa [Finset.sum_singleton, Finset.sum_singleton], fun j hj => h j ?_⟩
  exact fun heq => hj (Finset.mem_singleton.2 heq)

/-- The work that is left in all gets less. -/
theorem LowersOn.exists_sum_lt [DecidableEq ι] {s s' : σ} {S D : Finset ι}
    (h : LowersOn w s s' S) (hD : Within w s D) :
    ∃ D', Within w s' D' ∧ ∑ i ∈ D', w s' i < ∑ i ∈ D, w s i := by
  obtain ⟨hlt, hothers⟩ := h
  refine ⟨S ∪ D, fun j hj => ?_, ?_⟩
  · obtain ⟨hS, hD'⟩ := not_or.1 fun h => hj (Finset.mem_union.2 h)
    rw [hothers j hS]
    exact hD j hD'
  · have hrest : ∑ i ∈ D \ S, w s' i = ∑ i ∈ D \ S, w s i :=
      Finset.sum_congr rfl fun i hi => hothers i (Finset.mem_sdiff.1 hi).2
    have hall : ∑ i ∈ S ∪ D, w s i = ∑ i ∈ D, w s i :=
      (Finset.sum_subset Finset.subset_union_right fun i _ hi => hD i hi).symm
    calc ∑ i ∈ S ∪ D, w s' i
        = ∑ i ∈ S, w s' i + ∑ i ∈ D \ S, w s' i := by
          rw [← Finset.union_sdiff_self_eq_union, Finset.sum_union Finset.disjoint_sdiff]
      _ < ∑ i ∈ S, w s i + ∑ i ∈ D \ S, w s i := by
          rw [hrest]
          exact Nat.add_lt_add_right hlt _
      _ = ∑ i ∈ D, w s i := by
          rw [← hall, ← Finset.union_sdiff_self_eq_union, Finset.sum_union Finset.disjoint_sdiff]

/-- In a run whose steps all meet `E`, where those that `c` counts lower the work and the others
keep it, no more steps are counted than there is work at the start. -/
theorem countP_le_of_lowers [DecidableEq ι] {I : σ → Prop} {E : σ → α → Prop} {c : α → Bool}
    (hI : ∀ s a s', I s → E s a → step s a = some s' → I s')
    (hlower : ∀ s a s', I s → E s a → c a = true → step s a = some s' → ∃ S, LowersOn w s s' S)
    (hkeep : ∀ s a s', I s → E s a → c a = false → step s a = some s' → w s' = w s)
    {s s' : σ} {as : List α} {D : Finset ι} (hs : I s) (hD : Within w s D)
    (hrun : run step s as = some s') (has : Meets step E s as) :
    as.countP c ≤ ∑ i ∈ D, w s i := by
  induction as generalizing s D with
  | nil => exact Nat.zero_le _
  | cons a as ih =>
    obtain ⟨m, ha, hrun⟩ := run_cons_eq_some.1 hrun
    obtain ⟨hE, has⟩ := has
    have hm : I m := hI s a m hs hE ha
    cases hc : c a with
    | true =>
      obtain ⟨S, hS⟩ := hlower s a m hs hE hc ha
      obtain ⟨D', hD', hlt⟩ := hS.exists_sum_lt hD
      have hrest := ih hm hD' hrun (has m ha)
      rw [List.countP_cons_of_pos hc]
      omega
    | false =>
      have hw := hkeep s a m hs hE hc ha
      have hrest := ih hm (D := D) (fun i hi => hw ▸ hD i hi) hrun (has m ha)
      rw [List.countP_cons_of_neg (by simp [hc]), ← hw]
      exact hrest

/-- When the steps that `c` counts are bounded and a state that is not done allows one more, every
run can go on until it is done. -/
theorem exists_done {E : σ → α → Prop} {c : α → Bool} (done : σ → Prop) {s : σ} {n : ℕ}
    (hbound : ∀ as s', run step s as = some s' → Meets step E s as → as.countP c ≤ n)
    (hgo : ∀ m, ¬ done m →
      ∃ bs m', run step m bs = some m' ∧ Meets step E m bs ∧ 0 < bs.countP c) :
    ∃ as s', run step s as = some s' ∧ Meets step E s as ∧ done s' := by
  by_contra hnone
  have hmany : ∀ k, ∃ as m, run step s as = some m ∧ Meets step E s as ∧ k ≤ as.countP c := by
    intro k
    induction k with
    | zero => exact ⟨[], s, rfl, trivial, Nat.zero_le _⟩
    | succ k ih =>
      obtain ⟨as, m, hrun, has, hk⟩ := ih
      obtain ⟨bs, m', hrun', hbs, hpos⟩ := hgo m fun hm => hnone ⟨as, m, hrun, has, hm⟩
      refine ⟨as ++ bs, m', run_append_eq_some.2 ⟨m, hrun, hrun'⟩, Meets.append hrun has hbs, ?_⟩
      rw [List.countP_append]
      omega
  obtain ⟨as, m, hrun, has, hn⟩ := hmany (n + 1)
  have hle := hbound as m hrun has
  omega

/-- A run that only uses work up is no longer than the work that is left. -/
theorem UsesUp.length_le [DecidableEq ι] {s s' : σ} {as : List α} {D : Finset ι}
    (h : UsesUp step C w) (hD : Within w s D) (hrun : run step s as = some s')
    (hC : ∀ a ∈ as, C a) : as.length ≤ ∑ i ∈ D, w s i := by
  rw [← List.countP_true]
  refine countP_le_of_lowers (I := fun _ => True) (E := fun _ a => C a)
    (fun _ _ _ _ _ _ => trivial) ?_ (fun _ _ _ _ _ hc => by cases hc) trivial hD hrun
    (Meets.of_forall fun a ha _ => hC a ha)
  intro s a s' _ ha _ hs
  obtain ⟨i, hlt, hothers⟩ := h s a s' ha hs
  exact ⟨{i}, hothers.lowersOn hlt⟩

/-! ## Draining -/

/-- The draining rule. `C` are the steps that bring no new work, and `C'` are those among them
that a state with work left always enables. -/
theorem drains [DecidableEq ι] {s₀ s : σ} {C' : α → Prop} (hmoves : Moves step w)
    (h₀ : ∀ i, w s₀ i = 0) (huses : UsesUp step C w)
    (henabled : ∀ s i, Reachable step s₀ s → w s i ≠ 0 → ∃ a, C' a ∧ (step s a).isSome = true)
    (h : Reachable step s₀ s) :
    ∃ n, ∀ as s', run step s as = some s' → (∀ a ∈ as, C a) →
      as.length ≤ n ∧ ((∀ a, C' a → step s' a = none) → ∀ i, w s' i = 0) := by
  obtain ⟨D, hD⟩ := exists_within hmoves h₀ h
  refine ⟨∑ i ∈ D, w s i, fun as s' hrun hC => ⟨huses.length_le hD hrun hC, fun hstuck i => ?_⟩⟩
  by_contra hi
  obtain ⟨a, ha, hsome⟩ := henabled s' i (h.trans ⟨as, hrun⟩) hi
  rw [hstuck a ha] at hsome
  cases hsome

end EventPipeline.Computation

import Mathlib.Algebra.BigOperators.Group.Finset.Piecewise
import Mathlib.Algebra.Order.BigOperators.Group.Finset
import Mathlib.Tactic.Common

/-!
# Countdowns

Finitely many items, each with a weight. A round picks a batch of the items that are left, as
many as the batch size allows, and lowers the weight of each picked item; no weight rises. It
is not said which items a round picks. However the rounds choose, the total falls by the
batch in every round, and no item is left after so many rounds as the total has batches and
the largest weight says.
-/

set_option autoImplicit false

namespace EventPipeline.Computation

variable {ι : Type} [DecidableEq ι] {D : Finset ι} {B W c : ℕ} {w w' w'' : ι → ℕ}

/-- The items that are left. -/
def left (D : Finset ι) (w : ι → ℕ) : Finset ι := D.filter fun i => 0 < w i

def total (D : Finset ι) (w : ι → ℕ) : ℕ := ∑ i ∈ D, w i

/-- A round with batch size `B` that picks `P`. -/
structure Round (D : Finset ι) (B : ℕ) (P : Finset ι) (w w' : ι → ℕ) : Prop where
  picks : P ⊆ left D w
  card : P.card = min B (left D w).card
  lowers : ∀ i ∈ P, w' i < w i
  le : ∀ i ∈ D, w' i ≤ w i

omit [DecidableEq ι] in
/-- Where no weight rises the total does not rise. -/
theorem total_mono (h : ∀ i ∈ D, w' i ≤ w i) : total D w' ≤ total D w := Finset.sum_le_sum h

omit [DecidableEq ι] in
/-- Where no weight rises no item comes back. -/
theorem left_subset (h : ∀ i ∈ D, w' i ≤ w i) : left D w' ⊆ left D w := by
  intro i hi
  obtain ⟨hD, hpos⟩ := Finset.mem_filter.1 hi
  exact Finset.mem_filter.2 ⟨hD, hpos.trans_le (h i hD)⟩

/-- The total of the picked items, each counted once. -/
theorem sum_indicator {P : Finset ι} (hP : P ⊆ D) :
    ∑ i ∈ D, (if i ∈ P then 1 else 0) = P.card := by
  rw [Finset.sum_ite_mem, Finset.inter_eq_right.2 hP, Finset.card_eq_sum_ones]

/-- A round lowers the total by its batch at least. -/
theorem Round.total_le {P : Finset ι} (h : Round D B P w w') :
    total D w' + min B (left D w).card ≤ total D w := by
  have hP : P ⊆ D := h.picks.trans (Finset.filter_subset _ _)
  rw [← h.card, ← sum_indicator hP, total, total, ← Finset.sum_add_distrib]
  refine Finset.sum_le_sum fun i hi => ?_
  by_cases hmem : i ∈ P
  · rw [if_pos hmem]
    exact h.lowers i hmem
  · rw [if_neg hmem]
    exact h.le i hi

/-- A round that takes one off each picked item, and nothing else, lowers the total by its
batch. -/
theorem Round.total_eq {P : Finset ι} (h : Round D B P w w') (hpicked : ∀ i ∈ P, w' i + 1 = w i)
    (hothers : ∀ i ∈ D, i ∉ P → w' i = w i) :
    total D w' + min B (left D w).card = total D w := by
  have hP : P ⊆ D := h.picks.trans (Finset.filter_subset _ _)
  rw [← h.card, ← sum_indicator hP, total, total, ← Finset.sum_add_distrib]
  refine Finset.sum_congr rfl fun i hi => ?_
  by_cases hmem : i ∈ P
  · rw [if_pos hmem]
    exact hpicked i hmem
  · rw [if_neg hmem]
    exact hothers i hi hmem

omit [DecidableEq ι] in
/-- When the batch is not full, the round picks all that is left. -/
theorem Round.eq_left {P : Finset ι} (h : Round D B P w w') (hB : (left D w).card ≤ B) :
    P = left D w :=
  Finset.eq_of_subset_of_card_le h.picks (by rw [h.card, min_eq_right hB])

/-! ## Sequences of rounds -/

/-- `c` rounds, between which weights may fall. -/
inductive Rounds (D : Finset ι) (B : ℕ) (w : ι → ℕ) : ℕ → (ι → ℕ) → Prop
  | start : Rounds D B w 0 w
  | fall {c : ℕ} {w₁ w₂ : ι → ℕ} (h : Rounds D B w c w₁) (hle : ∀ i ∈ D, w₂ i ≤ w₁ i) :
      Rounds D B w c w₂
  | round {c : ℕ} {P : Finset ι} {w₁ w₂ : ι → ℕ} (h : Rounds D B w c w₁)
      (hr : Round D B P w₁ w₂) : Rounds D B w (c + 1) w₂

/-- `f` rounds had a full batch. After them came `g` rounds that took all that was left, so
that no weight is more than `W - g`. -/
structure Progress (D : Finset ι) (B W : ℕ) (w w' : ι → ℕ) (f g : ℕ) : Prop where
  full : f * B + total D w' ≤ total D w
  small : g ≠ 0 → (left D w').card < B
  le : ∀ i ∈ D, w' i ≤ W - g

omit [DecidableEq ι] in
/-- Progress is kept when weights fall in between. -/
theorem Progress.fall {f g : ℕ} (h : Progress D B W w w' f g) (hle : ∀ i ∈ D, w'' i ≤ w' i) :
    Progress D B W w w'' f g := by
  refine ⟨?_, fun hg => ?_, fun i hi => (hle i hi).trans (h.le i hi)⟩
  · have hfull := h.full
    have htotal := total_mono hle
    omega
  · exact (Finset.card_le_card (left_subset hle)).trans_lt (h.small hg)

/-- One more round is one more of the rounds that are counted. -/
theorem Progress.round {f g : ℕ} {P : Finset ι} (h : Progress D B W w w' f g)
    (hr : Round D B P w' w'') : ∃ f' g', f' + g' = f + g + 1 ∧ Progress D B W w w'' f' g' := by
  have htotal := hr.total_le
  have hfull := h.full
  by_cases hB : B ≤ (left D w').card
  · -- A full batch: no round before took all that was left.
    have hg : g = 0 := by
      by_contra hg
      have hlt := h.small hg
      omega
    subst hg
    refine ⟨f + 1, 0, by omega, ?_, fun hne => absurd rfl hne, fun i hi =>
      (hr.le i hi).trans (h.le i hi)⟩
    rw [min_eq_left hB] at htotal
    rw [Nat.add_mul, Nat.one_mul]
    omega
  · have hlt : (left D w').card < B := Nat.lt_of_not_le hB
    have hP := hr.eq_left hlt.le
    refine ⟨f, g + 1, by omega, by omega, fun _ => ?_, fun i hi => ?_⟩
    · exact (Finset.card_le_card (left_subset hr.le)).trans_lt hlt
    · have hw := h.le i hi
      by_cases hpos : 0 < w' i
      · have hlow := hr.lowers i (hP ▸ Finset.mem_filter.2 ⟨hi, hpos⟩)
        omega
      · have hle := hr.le i hi
        omega

/-- The rounds of a run, counted by what they have brought. -/
theorem progress_of_rounds (hW : ∀ i ∈ D, w i ≤ W) (h : Rounds D B w c w') :
    ∃ f g, f + g = c ∧ Progress D B W w w' f g := by
  induction h with
  | start => exact ⟨0, 0, rfl, by omega, fun hne => absurd rfl hne, hW⟩
  | fall _ hle ih =>
    obtain ⟨f, g, heq, hp⟩ := ih
    exact ⟨f, g, heq, hp.fall hle⟩
  | round _ hr ih =>
    obtain ⟨f, g, rfl, hp⟩ := ih
    exact hp.round hr

/-- After the rounds that the total has full batches for, and one for each unit of the
largest weight, no item is left. -/
theorem eq_zero_of_rounds (hB : 1 ≤ B) (hW : ∀ i ∈ D, w i ≤ W) (h : Rounds D B w c w')
    (hc : total D w / B + W ≤ c) : ∀ i ∈ D, w' i = 0 := by
  obtain ⟨f, g, rfl, hp⟩ := progress_of_rounds hW h
  intro i hi
  have hf : f ≤ total D w / B := (Nat.le_div_iff_mul_le hB).2 (by have := hp.full; omega)
  have hle := hp.le i hi
  omega

end EventPipeline.Computation

import Mathlib.Order.Nat
import Mathlib.Tactic.Common

/-!
# Trials up to the first success or a limit

A trial is repeated until it succeeds, at most `limit` times. The number of trials made is the
smaller one of the limit and of the position of the first success.
-/

set_option autoImplicit false

namespace EventPipeline.Computation

/-- How many of at most `limit` trials are made when trial `j` succeeds if `p j`. -/
def trials (p : ℕ → Prop) [DecidablePred p] : ℕ → ℕ
  | 0 => 0
  | limit + 1 => if p 0 then 1 else trials (fun j => p (j + 1)) limit + 1

section
variable {p : ℕ → Prop} [DecidablePred p] {limit j : ℕ}

/-- A trial is made when it is within the limit and none before it has succeeded. -/
theorem lt_trials_iff : j < trials p limit ↔ j < limit ∧ ∀ i < j, ¬ p i := by
  induction limit generalizing p j with
  | zero => exact iff_of_false (Nat.not_lt_zero j) fun h => Nat.not_lt_zero j h.1
  | succ limit ih =>
    rw [trials]
    cases j with
    | zero =>
      refine iff_of_true ?_ ⟨Nat.succ_pos limit, fun i hi => absurd hi (Nat.not_lt_zero i)⟩
      split <;> exact Nat.succ_pos _
    | succ j =>
      by_cases h0 : p 0
      · rw [if_pos h0]
        exact iff_of_false (by omega) fun h => h.2 0 (Nat.succ_pos j) h0
      · rw [if_neg h0, Nat.succ_lt_succ_iff, Nat.succ_lt_succ_iff, ih]
        refine and_congr_right fun _ => ⟨fun h i hi => ?_, fun h i hi => h (i + 1) (by omega)⟩
        cases i with
        | zero => exact h0
        | succ i => exact h i (by omega)

/-- There are at most `limit` trials. -/
theorem trials_le : trials p limit ≤ limit :=
  not_lt.1 fun h => lt_irrefl limit (lt_trials_iff.1 h).1

/-- There is a trial if one is allowed. -/
theorem trials_pos (h : 0 < limit) : 0 < trials p limit :=
  lt_trials_iff.2 ⟨h, fun i hi => absurd hi (Nat.not_lt_zero i)⟩

/-- The last trial has succeeded or is the last one within the limit. -/
theorem last_trial (h : j + 1 = trials p limit) : p j ∨ j + 1 = limit := by
  have hmade : j < trials p limit := h ▸ Nat.lt_succ_self j
  by_cases hlimit : j + 1 < limit
  · by_contra hnot
    have hnext : j + 1 < trials p limit := by
      refine lt_trials_iff.2 ⟨hlimit, fun i hi => ?_⟩
      obtain hlt | rfl := Nat.lt_succ_iff_lt_or_eq.1 hi
      · exact (lt_trials_iff.1 hmade).2 i hlt
      · exact fun hp => hnot (Or.inl hp)
    exact absurd h hnext.ne
  · exact Or.inr (le_antisymm (lt_trials_iff.1 hmade).1 (not_lt.1 hlimit))

/-- When the first success is at position `j + 1`, that many trials are made, or `limit`. -/
theorem trials_of_first (hj : p j) (hfirst : ∀ i < j, ¬ p i) :
    trials p limit = min (j + 1) limit := by
  refine le_antisymm (le_min ?_ trials_le) ?_
  · exact not_lt.1 fun h => (lt_trials_iff.1 h).2 j (Nat.lt_succ_self j) hj
  · have hend := lt_trials_iff.not.1 (lt_irrefl (trials p limit))
    by_cases hlimit : trials p limit < limit
    · have hreached : j < trials p limit := by
        by_contra hle
        exact hend ⟨hlimit, fun i hi => hfirst i (by omega)⟩
      omega
    · omega

/-- Without a success `limit` trials are made. -/
theorem trials_of_none (h : ∀ i, ¬ p i) : trials p limit = limit := by
  refine le_antisymm trials_le (not_lt.1 fun hlt => ?_)
  exact lt_irrefl _ (lt_trials_iff.2 ⟨hlt, fun i _ => h i⟩)

end

end EventPipeline.Computation

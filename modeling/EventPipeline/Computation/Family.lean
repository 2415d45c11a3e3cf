import Mathlib.Logic.Function.Basic
import Mathlib.Tactic.Common

/-!
# Families of processes

The processes of one kind are a function from their numbers to their local states, and a
step replaces the local state of one of them. A local state owns keys. These are the rules
for what the family owns after a step, and for ownership that is exclusive.
-/

set_option autoImplicit false

namespace EventPipeline.Computation

variable {ι σ κ : Type}

/-- No key is owned by two processes. -/
def Exclusive (own : σ → κ → Prop) (f : ι → σ) : Prop :=
  ∀ i j k, own (f i) k → own (f j) k → i = j

variable [DecidableEq ι] {own : σ → κ → Prop} {f : ι → σ} {i j : ι} {x : σ} {k : κ}

/-- After the step the process that has moved owns what its new state owns, and the others
own what they have owned. -/
theorem owns_update (h : own (Function.update f i x j) k) :
    (j = i ∧ own x k) ∨ (j ≠ i ∧ own (f j) k) := by
  by_cases hj : j = i
  · subst hj
    rw [Function.update_self] at h
    exact Or.inl ⟨rfl, h⟩
  · rw [Function.update_of_ne hj] at h
    exact Or.inr ⟨hj, h⟩

/-- A process that takes no key: everything owned after the step was owned before. -/
theorem owns_of_update (hx : ∀ k, own x k → own (f i) k)
    (h : own (Function.update f i x j) k) : own (f j) k := by
  obtain ⟨rfl, hown⟩ | ⟨_, hown⟩ := owns_update h
  · exact hx k hown
  · exact hown

/-- A process that takes only keys that no process owns. -/
theorem Exclusive.update (hf : Exclusive own f)
    (hx : ∀ k, own x k → own (f i) k ∨ ∀ j, ¬ own (f j) k) :
    Exclusive own (Function.update f i x) := by
  intro j j' k h h'
  obtain ⟨hj, hown⟩ | ⟨_, hown⟩ := owns_update h
  · obtain ⟨hj', _⟩ | ⟨_, hown'⟩ := owns_update h'
    · rw [hj, hj']
    · obtain hold | hfree := hx k hown
      · rw [hj]
        exact hf i j' k hold hown'
      · exact absurd hown' (hfree j')
  · obtain ⟨hj', hown'⟩ | ⟨_, hown'⟩ := owns_update h'
    · obtain hold | hfree := hx k hown'
      · rw [hj']
        exact hf j i k hown hold
      · exact absurd hown (hfree j)
    · exact hf j j' k hown hown'

end EventPipeline.Computation

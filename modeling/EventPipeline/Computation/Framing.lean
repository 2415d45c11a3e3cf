import Mathlib.Algebra.Group.Nat.Defs
import Mathlib.Data.List.Basic
import Mathlib.Tactic.Common

/-!
# Injective encodings of sequences

Ways to put parts one after the other so that they can be told apart again: a part that ends
at a separator it does not contain, parts of one fixed length, and parts whose lengths depend
on their places only. The digits of a number are such parts.
-/

set_option autoImplicit false

namespace EventPipeline.Computation

variable {α β : Type}

/-- Two sequences that are the same up to the first separator and after it. -/
theorem append_separator_inj {sep : β} {xs ys us vs : List β} (hx : sep ∉ xs) (hy : sep ∉ ys)
    (h : xs ++ sep :: us = ys ++ sep :: vs) : xs = ys ∧ us = vs := by
  induction xs generalizing ys with
  | nil =>
    cases ys with
    | nil => exact ⟨rfl, (List.cons.inj h).2⟩
    | cons y ys => exact absurd (List.mem_cons.2 (Or.inl (List.cons.inj h).1)) hy
  | cons x xs ih =>
    cases ys with
    | nil => exact absurd (List.mem_cons.2 (Or.inl (List.cons.inj h).1.symm)) hx
    | cons y ys =>
      obtain ⟨hxy, htail⟩ := List.cons.inj h
      obtain ⟨hxs, hus⟩ := ih (fun hmem => hx (List.mem_cons_of_mem _ hmem))
        (fun hmem => hy (List.mem_cons_of_mem _ hmem)) htail
      exact ⟨by rw [hxy, hxs], hus⟩

/-- A head whose encoding never contains the separator, the separator, and any rest. -/
theorem separated_injective {enc : α → List β} {sep : β} (henc : Function.Injective enc)
    (hsep : ∀ a, sep ∉ enc a) :
    Function.Injective fun p : α × List β => enc p.1 ++ sep :: p.2 := by
  rintro ⟨a, xs⟩ ⟨b, ys⟩ heq
  obtain ⟨hhead, hrest⟩ := append_separator_inj (hsep a) (hsep b) heq
  exact Prod.ext (henc hhead) hrest

/-- One block of a fixed positive length for each element. -/
theorem flatMap_injective {enc : α → List β} {n : ℕ} (henc : Function.Injective enc)
    (hlen : ∀ a, (enc a).length = n) (hn : 0 < n) :
    Function.Injective fun xs : List α => xs.flatMap enc := by
  intro xs ys heq
  induction xs generalizing ys with
  | nil =>
    cases ys with
    | nil => rfl
    | cons y ys =>
      have hzero := congrArg List.length heq
      simp only [List.flatMap_nil, List.flatMap_cons, List.length_append, hlen,
        List.length_nil] at hzero
      omega
  | cons x xs ih =>
    cases ys with
    | nil =>
      have hzero := congrArg List.length heq
      simp only [List.flatMap_nil, List.flatMap_cons, List.length_append, hlen,
        List.length_nil] at hzero
      omega
    | cons y ys =>
      simp only [List.flatMap_cons] at heq
      obtain ⟨hhead, htail⟩ := List.append_inj heq ((hlen x).trans (hlen y).symm)
      rw [henc hhead, ih htail]

/-- Blocks whose lengths depend on their places only. -/
theorem eq_of_flatMap_eq {f g : α → List β} {xs : List α}
    (hlen : ∀ a ∈ xs, (f a).length = (g a).length) (h : xs.flatMap f = xs.flatMap g) :
    ∀ a ∈ xs, f a = g a := by
  induction xs with
  | nil => exact fun a ha => absurd ha List.not_mem_nil
  | cons x xs ih =>
    rw [List.flatMap_cons, List.flatMap_cons] at h
    obtain ⟨hhead, htail⟩ := List.append_inj h (hlen x List.mem_cons_self)
    intro a ha
    obtain rfl | ha := List.mem_cons.1 ha
    · exact hhead
    · exact ih (fun a ha => hlen a (List.mem_cons_of_mem _ ha)) htail a ha

/-- The last `n` digits to the base `b` determine a number up to a multiple of `b ^ n`. -/
theorem mod_pow_eq_of_digits {b n x y : ℕ}
    (h : ∀ i < n, x / b ^ i % b = y / b ^ i % b) : x % b ^ n = y % b ^ n := by
  induction n with
  | zero => rw [Nat.pow_zero, Nat.mod_one, Nat.mod_one]
  | succ n ih =>
    rw [Nat.mod_pow_succ, Nat.mod_pow_succ, ih fun i hi => h i (Nat.lt_succ_of_lt hi),
      h n (Nat.lt_succ_self n)]

end EventPipeline.Computation

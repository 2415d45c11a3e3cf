import Mathlib.Data.List.Basic
import Mathlib.Tactic.Common

/-!
# Splitting at a separator

The text before the first separator and the text after it, as `str.partition` gives them, and
the text after the last separator. A text without the separator is all before it.
-/

set_option autoImplicit false

namespace EventPipeline.Computation

variable {α : Type} [DecidableEq α]

/-- `text.partition(sep)[0]`. -/
def before (sep : α) (text : List α) : List α := text.takeWhile fun c => c ≠ sep

/-- `text.partition(sep)[2]`. -/
def after (sep : α) (text : List α) : List α := (text.dropWhile fun c => c ≠ sep).drop 1

/-- `text.rpartition(sep)[2]`. -/
def afterLast (sep : α) (text : List α) : List α := (before sep text.reverse).reverse

section
variable {sep : α} {text front rest : List α}

/-- A front without the separator is skipped. -/
theorem before_append (h : sep ∉ front) : before sep (front ++ rest) = front ++ before sep rest :=
  List.takeWhile_append_of_pos fun c hc => decide_eq_true fun heq : c = sep => h (heq ▸ hc)

/-- A text without the separator in front does not change what follows the separator. -/
theorem after_append (h : sep ∉ front) : after sep (front ++ rest) = after sep rest :=
  congrArg (List.drop 1)
    (List.dropWhile_append_of_pos fun c hc => decide_eq_true fun heq : c = sep => h (heq ▸ hc))

/-- Nothing stands before the separator in the empty text. -/
@[simp] theorem before_nil : before sep [] = [] := rfl

/-- Nothing stands after the separator in the empty text. -/
@[simp] theorem after_nil : after sep [] = [] := rfl

/-- Nothing stands before a separator at the start. -/
@[simp] theorem before_cons_self : before sep (sep :: rest) = [] := by simp [before]

/-- What follows a separator at the start is the rest. -/
@[simp] theorem after_cons_self : after sep (sep :: rest) = rest := by simp [after]

/-- Without a separator the whole text stands before it. -/
theorem before_of_notMem (h : sep ∉ text) : before sep text = text := by
  have hall : before sep (text ++ []) = text ++ before sep [] := before_append h
  rwa [List.append_nil, before_nil, List.append_nil] at hall

/-- Without a separator nothing stands after it. -/
theorem after_of_notMem (h : sep ∉ text) : after sep text = [] := by
  have hall : after sep (text ++ []) = after sep [] := after_append h
  rwa [List.append_nil, after_nil] at hall

/-- A text with the separator is what is before it, the separator, and what is after it. -/
theorem exists_eq_append (h : sep ∈ text) :
    ∃ front rest, sep ∉ front ∧ text = front ++ sep :: rest := by
  induction text with
  | nil => cases h
  | cons c text ih =>
    by_cases hc : sep = c
    · subst hc
      exact ⟨[], text, List.not_mem_nil, rfl⟩
    · obtain ⟨front, rest, hfront, rfl⟩ := ih ((List.mem_cons.1 h).resolve_left hc)
      exact ⟨c :: front, rest, List.not_mem_cons_of_ne_of_not_mem hc hfront, rfl⟩

/-- Nothing is before the first separator exactly when the text is empty or starts with it. -/
theorem before_eq_nil_iff : before sep text = [] ↔ text = [] ∨ ∃ rest, text = sep :: rest := by
  cases text with
  | nil => exact iff_of_true rfl (Or.inl rfl)
  | cons c text =>
    by_cases hc : c = sep
    · subst hc
      exact iff_of_true before_cons_self (Or.inr ⟨text, rfl⟩)
    · refine iff_of_false ?_ ?_
      · simp [before, hc]
      · rintro (h | ⟨rest, h⟩)
        · cases h
        · exact hc (List.cons.inj h).1

/-- What is after the last separator is a part of the text. -/
theorem mem_of_mem_afterLast {c : α} (h : c ∈ afterLast sep text) : c ∈ text :=
  List.mem_reverse.1 ((List.takeWhile_sublist _).subset (List.mem_reverse.1 h))

/-- Nothing after the last separator: the text is empty or has one. -/
theorem mem_of_afterLast_eq_nil (h : afterLast sep text = []) (hne : text ≠ []) : sep ∈ text := by
  by_contra hsep
  unfold afterLast at h
  rw [before_of_notMem fun hmem => hsep (List.mem_reverse.1 hmem), List.reverse_reverse] at h
  exact hne h

omit [DecidableEq α] in
/-- Removing elements that do not end a scan commutes with the scan. -/
theorem takeWhile_filter {p q : α → Bool} (h : ∀ c, p c = false → q c = true) (text : List α) :
    (text.filter q).takeWhile p = (text.takeWhile p).filter q := by
  induction text with
  | nil => rfl
  | cons c text ih =>
    cases hp : p c with
    | true =>
      cases hq : q c with
      | true => simp [hp, hq, ih]
      | false => simp [hp, hq, ih]
    | false => simp [hp, h c hp]

end

end EventPipeline.Computation

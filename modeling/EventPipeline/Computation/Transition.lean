import Mathlib.Data.List.Basic
import Mathlib.Tactic.Common

/-!
# Runs of a partial step function

A system is given by a step function `σ → α → Option σ`: an action is either enabled,
with one next state, or disabled. All nondeterminism is in the choice of the action.
This file has what every argument about such a system needs: runs and how they compose,
reachability, and the rules that lift a fact about one step to every run. The rules come
in two forms, for all runs and for the runs whose steps all meet a condition.
-/

set_option autoImplicit false

namespace EventPipeline.Computation

variable {σ τ α β : Type}

/-- The state after the actions of a list, taken in order; `none` when one of them is
disabled. -/
def run (step : σ → α → Option σ) : σ → List α → Option σ
  | s, [] => some s
  | s, a :: as => (step s a).bind fun s' => run step s' as

variable {step : σ → α → Option σ}

/-- A run of no action stays where it is. -/
@[simp] theorem run_nil (s : σ) : run step s [] = some s := rfl

/-- A run of `a :: as` is a step with `a` and then a run of `as`. -/
theorem run_cons_eq_some {s s' : σ} {a : α} {as : List α} :
    run step s (a :: as) = some s' ↔ ∃ m, step s a = some m ∧ run step m as = some s' := by
  simp [run, Option.bind_eq_some_iff]

/-- Runs compose. -/
theorem run_append_eq_some {s s' : σ} {as bs : List α} :
    run step s (as ++ bs) = some s' ↔ ∃ m, run step s as = some m ∧ run step m bs = some s' := by
  induction as generalizing s with
  | nil => simp
  | cons a as ih =>
    simp only [List.cons_append, run_cons_eq_some, ih]
    constructor
    · rintro ⟨m, ha, m', has, hbs⟩
      exact ⟨m', ⟨m, ha, has⟩, hbs⟩
    · rintro ⟨m', ⟨m, ha, has⟩, hbs⟩
      exact ⟨m, ha, m', has, hbs⟩

/-- A run of one action is a step. -/
theorem run_singleton {s : σ} {a : α} : run step s [a] = step s a := by
  cases h : step s a <;> simp [run, h]

/-! ## Reachability -/

/-- The states that some run from `s₀` ends in. -/
def Reachable (step : σ → α → Option σ) (s₀ s : σ) : Prop :=
  ∃ as, run step s₀ as = some s

/-- The start is reachable. -/
theorem Reachable.refl (s₀ : σ) : Reachable step s₀ s₀ := ⟨[], rfl⟩

/-- A history that is enabled reaches the state it ends in. -/
theorem Reachable.of_run {s₀ : σ} {as : List α} (h : (run step s₀ as).isSome) :
    Reachable step s₀ ((run step s₀ as).get h) := ⟨as, (Option.some_get h).symm⟩

/-- What can be reached from a reachable state is reachable. -/
theorem Reachable.trans {s₀ s s' : σ} (h : Reachable step s₀ s) (h' : Reachable step s s') :
    Reachable step s₀ s' := by
  obtain ⟨as, has⟩ := h
  obtain ⟨bs, hbs⟩ := h'
  exact ⟨as ++ bs, run_append_eq_some.2 ⟨s, has, hbs⟩⟩

/-- A step from a reachable state leads to one. -/
theorem Reachable.snoc {s₀ s s' : σ} {a : α} (h : Reachable step s₀ s)
    (ha : step s a = some s') : Reachable step s₀ s' :=
  h.trans ⟨[a], run_singleton.trans ha⟩

/-- The invariant rule: what holds at the start and is kept by every step from a reachable
state holds in every reachable state. -/
theorem Reachable.induct {s₀ : σ} {I : σ → Prop} (h₀ : I s₀)
    (hstep : ∀ s a s', Reachable step s₀ s → I s → step s a = some s' → I s') {s : σ}
    (h : Reachable step s₀ s) : I s := by
  obtain ⟨as, has⟩ := h
  have key : ∀ (as : List α) (m : σ), Reachable step s₀ m → I m → run step m as = some s → I s := by
    intro as
    induction as with
    | nil =>
      intro m _ hm hrun
      cases hrun
      exact hm
    | cons a as ih =>
      intro m hreach hm hrun
      obtain ⟨m', ha, has⟩ := run_cons_eq_some.1 hrun
      exact ih m' (hreach.snoc ha) (hstep m a m' hreach hm ha) has
  exact key as s₀ (Reachable.refl s₀) h₀ has

/-- A relation that holds between the two ends of every step from a reachable state, and
composes, holds between any two states of a run. -/
theorem Reachable.rel {s₀ s s' : σ} {R : σ → σ → Prop} (hrefl : ∀ s, R s s)
    (htrans : ∀ {x y z}, R x y → R y z → R x z)
    (hstep : ∀ s a s', Reachable step s₀ s → step s a = some s' → R s s')
    (h : Reachable step s₀ s) (h' : Reachable step s s') : R s s' :=
  h'.induct (hrefl s) fun _ a _ hm ih ha => htrans ih (hstep _ a _ (h.trans hm) ha)

/-! ## Runs whose steps all meet a condition -/

/-- Every step of the run of `as` from `s` is taken in a state and with an action that meet
the condition `C`. -/
def Meets (step : σ → α → Option σ) (C : σ → α → Prop) : σ → List α → Prop
  | _, [] => True
  | s, a :: as => C s a ∧ ∀ s', step s a = some s' → Meets step C s' as

/-- The states reached by a run whose steps all meet `C`. -/
def ReachableIf (step : σ → α → Option σ) (C : σ → α → Prop) (s₀ s : σ) : Prop :=
  ∃ as, run step s₀ as = some s ∧ Meets step C s₀ as

variable {C : σ → α → Prop}

/-- The start is reached without a step. -/
theorem ReachableIf.refl (s₀ : σ) : ReachableIf step C s₀ s₀ := ⟨[], rfl, trivial⟩

/-- A state that is reached under a condition is reachable. -/
theorem ReachableIf.reachable {s₀ s : σ} (h : ReachableIf step C s₀ s) : Reachable step s₀ s :=
  h.imp fun _ h => h.1

/-- A run meets a condition if its two parts do. -/
theorem Meets.append {s m : σ} {as bs : List α} (hrun : run step s as = some m)
    (has : Meets step C s as) (hbs : Meets step C m bs) : Meets step C s (as ++ bs) := by
  induction as generalizing s with
  | nil =>
    cases hrun
    exact hbs
  | cons a as ih =>
    obtain ⟨m', ha, hrun⟩ := run_cons_eq_some.1 hrun
    refine ⟨has.1, fun s' hs' => ?_⟩
    have hm : m' = s' := Option.some.inj (ha.symm.trans hs')
    exact ih (hm ▸ hrun) (has.2 s' hs')

/-- A step that meets the condition, and a run from where it leads. -/
theorem Meets.cons {s m : σ} {a : α} {as : List α} (ha : step s a = some m) (hC : C s a)
    (h : Meets step C m as) : Meets step C s (a :: as) := by
  refine ⟨hC, fun s' hs' => ?_⟩
  rw [ha] at hs'
  cases hs'
  exact h

/-- A run that meets a condition meets a weaker one. -/
theorem Meets.mono {C' : σ → α → Prop} {s : σ} {as : List α} (h : Meets step C s as)
    (himp : ∀ s a, C s a → C' s a) : Meets step C' s as := by
  induction as generalizing s with
  | nil => trivial
  | cons a as ih => exact ⟨himp s a h.1, fun s' hs' => ih (h.2 s' hs')⟩

/-- A run that meets two conditions meets both at every step. -/
theorem Meets.and {C' : σ → α → Prop} {s : σ} {as : List α} (h : Meets step C s as)
    (h' : Meets step C' s as) : Meets step (fun s a => C s a ∧ C' s a) s as := by
  induction as generalizing s with
  | nil => trivial
  | cons a as ih => exact ⟨⟨h.1, h'.1⟩, fun s' hs' => ih (h.2 s' hs') (h'.2 s' hs')⟩

/-- What it means for a run to meet a condition, step by step. -/
theorem meets_iff {s s' : σ} {as : List α} (hrun : run step s as = some s') :
    Meets step C s as ↔
      ∀ as₁ a as₂ m, as = as₁ ++ a :: as₂ → run step s as₁ = some m → C m a := by
  induction as generalizing s with
  | nil => simp [Meets]
  | cons b as ih =>
    obtain ⟨n, hb, has⟩ := run_cons_eq_some.1 hrun
    have hrest : (∀ s'', step s b = some s'' → Meets step C s'' as) ↔ Meets step C n as := by
      simp [hb]
    simp only [Meets, hrest, ih has]
    constructor
    · rintro ⟨hC, hall⟩ as₁ a as₂ m heq hm
      cases as₁ with
      | nil =>
        cases heq
        cases hm
        exact hC
      | cons c as₁ =>
        obtain ⟨rfl, rfl⟩ := List.cons.inj heq
        obtain ⟨n', hc, hm⟩ := run_cons_eq_some.1 hm
        have hn : n = n' := Option.some.inj (hb.symm.trans hc)
        exact hall as₁ a as₂ m rfl (hn ▸ hm)
    · intro hall
      refine ⟨hall [] b as s rfl rfl, fun as₁ a as₂ m heq hm => ?_⟩
      exact hall (b :: as₁) a as₂ m (by rw [heq, List.cons_append])
        (run_cons_eq_some.2 ⟨n, hb, hm⟩)

/-- Runs that meet a condition compose. -/
theorem ReachableIf.trans {s₀ s s' : σ} (h : ReachableIf step C s₀ s)
    (h' : ReachableIf step C s s') : ReachableIf step C s₀ s' := by
  obtain ⟨as, has, hC⟩ := h
  obtain ⟨bs, hbs, hC'⟩ := h'
  exact ⟨as ++ bs, run_append_eq_some.2 ⟨s, has, hbs⟩, Meets.append has hC hC'⟩

/-- A step that meets the condition continues such a run. -/
theorem ReachableIf.snoc {s₀ s s' : σ} {a : α} (h : ReachableIf step C s₀ s) (hC : C s a)
    (ha : step s a = some s') : ReachableIf step C s₀ s' :=
  h.trans ⟨[a], run_singleton.trans ha, hC, fun _ _ => trivial⟩

/-- A run that meets a stronger condition meets the weaker one. -/
theorem ReachableIf.mono {C' : σ → α → Prop} {s₀ s : σ} (hC : ∀ s a, C' s a → C s a)
    (h : ReachableIf step C' s₀ s) : ReachableIf step C s₀ s := by
  obtain ⟨as, has, hmeets⟩ := h
  refine ⟨as, has, ?_⟩
  clear has
  induction as generalizing s₀ with
  | nil => trivial
  | cons a as ih => exact ⟨hC s₀ a hmeets.1, fun s' hs' => ih (hmeets.2 s' hs')⟩

/-- Whether a run meets a decidable condition can be computed. -/
instance decidableMeets [∀ s a, Decidable (C s a)] : ∀ s as, Decidable (Meets step C s as)
  | _, [] => isTrue trivial
  | s, a :: as =>
    match h : step s a with
    | none => decidable_of_iff (C s a) (by simp [Meets, h])
    | some s' =>
      @decidable_of_iff _ (C s a ∧ Meets step C s' as) (by simp [Meets, h])
        (@instDecidableAnd _ _ _ (decidableMeets s' as))

/-- A history that is enabled and meets the condition. -/
theorem ReachableIf.of_run {s₀ : σ} {as : List α} (h : (run step s₀ as).isSome)
    (hC : Meets step C s₀ as) : ReachableIf step C s₀ ((run step s₀ as).get h) :=
  ⟨as, (Option.some_get h).symm, hC⟩

/-- A history whose actions meet the condition in every state. -/
theorem Meets.of_forall {s : σ} {as : List α} (hC : ∀ a ∈ as, ∀ m, C m a) :
    Meets step C s as := by
  induction as generalizing s with
  | nil => trivial
  | cons a as ih =>
    refine ⟨hC a List.mem_cons_self s, fun s' _ => ?_⟩
    exact ih fun b hb => hC b (List.mem_cons_of_mem _ hb)

/-- A run whose actions meet the condition in every state. -/
theorem ReachableIf.of_forall {s s' : σ} {as : List α} (h : run step s as = some s')
    (hC : ∀ a ∈ as, ∀ m, C m a) : ReachableIf step C s s' :=
  ⟨as, h, Meets.of_forall hC⟩

/-- The invariant rule for the runs whose steps all meet `C`. -/
theorem ReachableIf.induct {s₀ : σ} {I : σ → Prop} (h₀ : I s₀)
    (hstep : ∀ s a s', ReachableIf step C s₀ s → I s → C s a → step s a = some s' → I s')
    {s : σ} (h : ReachableIf step C s₀ s) : I s := by
  obtain ⟨as, has, hC⟩ := h
  have key : ∀ (as : List α) (m : σ), ReachableIf step C s₀ m → I m → run step m as = some s →
      Meets step C m as → I s := by
    intro as
    induction as with
    | nil =>
      intro m _ hm hrun _
      cases hrun
      exact hm
    | cons a as ih =>
      intro m hreach hm hrun hC
      obtain ⟨m', ha, has⟩ := run_cons_eq_some.1 hrun
      exact ih m' (hreach.snoc hC.1 ha) (hstep m a m' hreach hm hC.1 ha) has (hC.2 m' ha)
  exact key as s₀ (ReachableIf.refl s₀) h₀ has hC

/-- The relational form of `ReachableIf.induct`. -/
theorem ReachableIf.rel {s₀ s s' : σ} {R : σ → σ → Prop} (hrefl : ∀ s, R s s)
    (htrans : ∀ {x y z}, R x y → R y z → R x z)
    (hstep : ∀ s a s', ReachableIf step C s₀ s → C s a → step s a = some s' → R s s')
    (h : ReachableIf step C s₀ s) (h' : ReachableIf step C s s') : R s s' :=
  h'.induct (hrefl s) fun _ a _ hm ih hC ha => htrans ih (hstep _ a _ (h.trans hm) hC ha)

/-! ## Simulation -/

/-- The abstract system `astep` can follow every step that the concrete system takes from a
reachable state, by some run of its own that keeps the relation `R`. -/
structure Simulates (step : σ → α → Option σ) (s₀ : σ) (astep : τ → β → Option τ) (t₀ : τ)
    (R : σ → τ → Prop) : Prop where
  init : R s₀ t₀
  step : ∀ s a s' t, Reachable step s₀ s → R s t → step s a = some s' →
    ∃ t', Reachable astep t t' ∧ R s' t'

/-- Every reachable concrete state is related to a reachable abstract state. -/
theorem Simulates.reachable {s₀ s : σ} {astep : τ → β → Option τ} {t₀ : τ} {R : σ → τ → Prop}
    (hsim : Simulates step s₀ astep t₀ R) (h : Reachable step s₀ s) :
    ∃ t, Reachable astep t₀ t ∧ R s t :=
  h.induct (I := fun s => ∃ t, Reachable astep t₀ t ∧ R s t)
    ⟨t₀, Reachable.refl t₀, hsim.init⟩ fun m a m' hm ih ha => by
      obtain ⟨t, ht, hR⟩ := ih
      obtain ⟨t', ht', hR'⟩ := hsim.step m a m' t hm hR ha
      exact ⟨t', ht.trans ht', hR'⟩

end EventPipeline.Computation

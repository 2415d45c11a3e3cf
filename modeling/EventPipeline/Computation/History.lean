import Mathlib.Data.List.Induction
import EventPipeline.Computation.Transition

/-!
# What a run lets an observer see

An observer records something at each step of a run, which gives the history of the run. An
invariant that relates the state to the history is proved by an induction that takes the
last step of the run.
-/

set_option autoImplicit false

namespace EventPipeline.Computation

variable {σ α ο : Type} {step : σ → α → Option σ} {s₀ s s' : σ} {as : List α} {a : α}

/-- Induction over a run by its last step. -/
theorem run_induct {I : List α → σ → Prop} (h₀ : I [] s₀)
    (hstep : ∀ as s a s', run step s₀ as = some s → I as s → step s a = some s' →
      I (as ++ [a]) s')
    (h : run step s₀ as = some s) : I as s := by
  induction as using List.reverseRecOn generalizing s with
  | nil =>
    cases h
    exact h₀
  | append_singleton as a ih =>
    obtain ⟨m, has, ha⟩ := run_append_eq_some.1 h
    rw [run_singleton] at ha
    exact hstep as m a s has (ih has) ha

/-- A run that meets a condition and one more step. -/
theorem meets_snoc {C : σ → α → Prop} (h : run step s₀ as = some s) :
    Meets step C s₀ (as ++ [a]) ↔ Meets step C s₀ as ∧ C s a := by
  induction as generalizing s₀ with
  | nil =>
    cases h
    simp [Meets]
  | cons b as ih =>
    obtain ⟨m, hb, has⟩ := run_cons_eq_some.1 h
    have hrest : ∀ P : σ → Prop, (∀ s', step s₀ b = some s' → P s') ↔ P m := by
      intro P
      simp [hb]
    simp only [List.cons_append, Meets, hrest, ih has, and_assoc]

/-- All that `obs` records along the run of `as` from `s`. -/
def history (step : σ → α → Option σ) (obs : σ → α → List ο) : σ → List α → List ο
  | _, [] => []
  | s, a :: as => obs s a ++ ((step s a).map fun s' => history step obs s' as).getD []

variable {obs : σ → α → List ο}

/-- Nothing is recorded of no step. -/
@[simp] theorem history_nil : history step obs s [] = [] := rfl

/-- The last step adds what is recorded at it. -/
theorem history_snoc (h : run step s₀ as = some s) :
    history step obs s₀ (as ++ [a]) = history step obs s₀ as ++ obs s a := by
  induction as generalizing s₀ with
  | nil =>
    cases h
    cases ha : step s a <;> simp [history, ha]
  | cons b as ih =>
    obtain ⟨m, hb, has⟩ := run_cons_eq_some.1 h
    simp only [List.cons_append, history, hb, Option.map_some, Option.getD_some, ih has,
      List.append_assoc]

/-- An observer that sees a part of what another one sees. -/
theorem history_filterMap {π : Type} (f : ο → Option π) (s : σ) (as : List α) :
    history step (fun s a => (obs s a).filterMap f) s as = (history step obs s as).filterMap f := by
  induction as generalizing s with
  | nil => rfl
  | cons a as ih =>
    simp only [history, List.filterMap_append]
    cases step s a with
    | none => simp
    | some s' => simp [ih]

/-- The invariant rule for a state with its history, in the runs whose steps all meet `C`. -/
theorem history_induct_if {C : σ → α → Prop} {I : σ → List ο → Prop} (h₀ : I s₀ [])
    (hstep : ∀ s l a s', ReachableIf step C s₀ s → I s l → C s a → step s a = some s' →
      I s' (l ++ obs s a))
    (h : run step s₀ as = some s) (hC : Meets step C s₀ as) :
    I s (history step obs s₀ as) := by
  refine run_induct (I := fun as s => Meets step C s₀ as → I s (history step obs s₀ as))
    (fun _ => h₀) ?_ h hC
  intro as s a s' hrun ih hs hmeets
  obtain ⟨hmeets, ha⟩ := (meets_snoc hrun).1 hmeets
  rw [history_snoc hrun]
  exact hstep s _ a s' ⟨as, hrun, hmeets⟩ (ih hmeets) ha hs

/-- The invariant rule for a state with its history. -/
theorem history_induct {I : σ → List ο → Prop} (h₀ : I s₀ [])
    (hstep : ∀ s l a s', Reachable step s₀ s → I s l → step s a = some s' →
      I s' (l ++ obs s a))
    (h : run step s₀ as = some s) : I s (history step obs s₀ as) := by
  refine run_induct (I := fun as s => I s (history step obs s₀ as)) h₀ ?_ h
  intro as s a s' hrun ih hs
  rw [history_snoc hrun]
  exact hstep s _ a s' ⟨as, hrun⟩ ih hs

/-- The lockstep rule: where the abstract system `astep` takes every step that the concrete one
takes, keeps the relation `R` and lets its observer see the same, the two histories agree. -/
theorem lockstep {τ : Type} {astep : τ → α → Option τ} {aobs : τ → α → List ο} {t₀ : τ}
    {R : σ → τ → Prop} (h₀ : R s₀ t₀)
    (hstep : ∀ s a s' t, R s t → step s a = some s' →
      obs s a = aobs t a ∧ ∃ t', astep t a = some t' ∧ R s' t')
    (h : run step s₀ as = some s) :
    ∃ t, run astep t₀ as = some t ∧ R s t ∧
      history step obs s₀ as = history astep aobs t₀ as := by
  refine run_induct (I := fun as s => ∃ t, run astep t₀ as = some t ∧ R s t ∧
    history step obs s₀ as = history astep aobs t₀ as) ⟨t₀, rfl, h₀, rfl⟩ ?_ h
  rintro as s a s' hrun ⟨t, ht, hR, hist⟩ hs
  obtain ⟨hobs, t', ht', hR'⟩ := hstep s a s' t hR hs
  refine ⟨t', run_append_eq_some.2 ⟨t, ht, run_singleton.trans ht'⟩, hR', ?_⟩
  rw [history_snoc hrun, history_snoc ht, hist, hobs]

/-! ## Since the last entry of a kind -/

/-- The entries after the last one that satisfies `p`, the latest first. -/
def since (p : ο → Bool) (log : List ο) : List ο := log.reverse.takeWhile fun e => !p e

/-- An entry of the kind starts the count again. -/
theorem since_snoc_of_pos {p : ο → Bool} {log : List ο} {e : ο} (h : p e = true) :
    since p (log ++ [e]) = [] := by
  simp [since, h]

/-- An entry of another kind is put in front. -/
theorem since_snoc_of_neg {p : ο → Bool} {log : List ο} {e : ο} (h : p e = false) :
    since p (log ++ [e]) = e :: since p log := by
  simp [since, h]

end EventPipeline.Computation

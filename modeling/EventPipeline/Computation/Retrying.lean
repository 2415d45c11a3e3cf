import Mathlib.Order.Nat
import EventPipeline.Computation.History

/-!
# Retrying up to a limit

A loop makes one attempt after the other. When an attempt ends with an outcome that asks for
another one and the limit is not reached, the loop waits and tries again; any other outcome is the
outcome of the loop. What an observer sees of the loop are the begins and the ends of its attempts.
-/

set_option autoImplicit false

namespace EventPipeline.Computation

structure RetryPolicy (ο : Type) where
  /-- the outcomes that ask for another attempt -/
  again : ο → Bool
  limit : ℕ
  /-- the wait after the attempt with this number, counted from 1 -/
  wait : ℕ → ℕ

/-- Where a loop is; `ended` counts the attempts that have ended. -/
inductive LoopState (ο : Type) where
  | waiting (ended resumesAt : ℕ)
  | trying (ended : ℕ)
  | done (o : ο)

inductive LoopEvent (ο : Type) where
  | begins (now : ℕ)
  | ends (now : ℕ) (o : ο)

variable {ο : Type}

def LoopState.start : LoopState ο := .waiting 0 0

/-- The step function of the loop. -/
def RetryPolicy.next (p : RetryPolicy ο) : LoopState ο → LoopEvent ο → Option (LoopState ο)
  | .waiting ended resumesAt, .begins now => if resumesAt ≤ now then some (.trying ended) else none
  | .trying ended, .ends now o =>
    if p.again o && decide (ended + 1 < p.limit) then
      some (.waiting (ended + 1) (now + p.wait (ended + 1)))
    else some (.done o)
  | _, _ => none

def LoopEvent.isBegin : LoopEvent ο → Bool
  | .begins _ => true
  | .ends _ _ => false

def LoopEvent.outcome : LoopEvent ο → Option ο
  | .begins _ => none
  | .ends _ o => some o

/-- The number of attempts that have begun. -/
def attemptsIn (es : List (LoopEvent ο)) : ℕ := es.countP LoopEvent.isBegin

/-- The outcomes of the attempts that have ended. -/
def outcomesIn (es : List (LoopEvent ο)) : List ο := es.filterMap LoopEvent.outcome

section
variable {es : List (LoopEvent ο)} {now : ℕ} {o : ο}

/-- A begin is one more attempt. -/
@[simp] theorem attemptsIn_begins : attemptsIn (es ++ [.begins now]) = attemptsIn es + 1 := by
  simp [attemptsIn, LoopEvent.isBegin]

/-- An end is no attempt. -/
@[simp] theorem attemptsIn_ends : attemptsIn (es ++ [.ends now o]) = attemptsIn es := by
  simp [attemptsIn, LoopEvent.isBegin]

/-- A begin has no outcome. -/
@[simp] theorem outcomesIn_begins : outcomesIn (es ++ [.begins now]) = outcomesIn es := by
  simp [outcomesIn, LoopEvent.outcome]

/-- An end adds its outcome. -/
@[simp] theorem outcomesIn_ends : outcomesIn (es ++ [.ends now o]) = outcomesIn es ++ [o] := by
  simp [outcomesIn, LoopEvent.outcome]

end

/-! ## What the loop has done -/

/-- What the events say in each state of the loop. -/
def RetryPolicy.Explains (p : RetryPolicy ο) (es : List (LoopEvent ο)) : LoopState ο → Prop
  | .waiting ended _ => attemptsIn es = ended ∧ ended < p.limit ∧ ∀ o ∈ outcomesIn es, p.again o
  | .trying ended => attemptsIn es = ended + 1 ∧ ended < p.limit ∧ ∀ o ∈ outcomesIn es, p.again o
  | .done o => ∃ os, outcomesIn es = os ++ [o] ∧ attemptsIn es ≤ p.limit ∧
      (∀ x ∈ os, p.again x) ∧ (p.again o → attemptsIn es = p.limit)

variable {p : RetryPolicy ο} {es : List (LoopEvent ο)} {st : LoopState ο}

/-- A run of the loop from its start explains the state it ends in. -/
theorem RetryPolicy.explains_of_run (hlimit : 0 < p.limit) (h : run p.next .start es = some st) :
    p.Explains es st := by
  have hstart : p.Explains [] .start := ⟨rfl, hlimit, fun _ ho => by cases ho⟩
  refine run_induct (I := p.Explains) hstart ?_ h
  intro es st e st' _ hinv hs
  cases st with
  | waiting ended resumesAt =>
    obtain ⟨hcount, hlt, hagain⟩ := hinv
    cases e with
    | begins now =>
      simp only [RetryPolicy.next] at hs
      split at hs
      · cases hs
        refine ⟨by rw [attemptsIn_begins, hcount], hlt, ?_⟩
        rw [outcomesIn_begins]
        exact hagain
      · cases hs
    | ends now o => cases hs
  | trying ended =>
    obtain ⟨hcount, hlt, hagain⟩ := hinv
    cases e with
    | begins now => cases hs
    | ends now o =>
      simp only [RetryPolicy.next] at hs
      split at hs
      · rename_i hgo
        simp only [Bool.and_eq_true, decide_eq_true_eq] at hgo
        cases hs
        refine ⟨by rw [attemptsIn_ends, hcount], hgo.2, fun x hx => ?_⟩
        rw [outcomesIn_ends, List.mem_append, List.mem_singleton] at hx
        obtain hx | rfl := hx
        · exact hagain x hx
        · exact hgo.1
      · rename_i hstop
        simp only [Bool.and_eq_true, decide_eq_true_eq, not_and, not_lt] at hstop
        cases hs
        refine ⟨outcomesIn es, outcomesIn_ends, ?_, hagain, fun ho => ?_⟩
        · rw [attemptsIn_ends, hcount]
          exact hlt
        · rw [attemptsIn_ends, hcount]
          exact le_antisymm hlt (hstop ho)
  | done o => cases hs

/-- The loop makes at most `limit` attempts. -/
theorem RetryPolicy.attemptsIn_le (hlimit : 0 < p.limit) (h : run p.next .start es = some st) :
    attemptsIn es ≤ p.limit := by
  have hinv := RetryPolicy.explains_of_run hlimit h
  cases st with
  | waiting ended resumesAt => exact (hinv.1.trans_lt hinv.2.1).le
  | trying ended => exact hinv.1.trans_le hinv.2.1
  | done o =>
    obtain ⟨_, _, hle, _⟩ := hinv
    exact hle

/-- Every outcome but the last one asks for another attempt. -/
theorem RetryPolicy.again_of_outcomesIn (hlimit : 0 < p.limit) (h : run p.next .start es = some st)
    {os : List ο} {o : ο} (hos : outcomesIn es = os ++ [o]) : ∀ x ∈ os, p.again x := by
  have hinv := RetryPolicy.explains_of_run hlimit h
  have hall : (∀ x ∈ outcomesIn es, p.again x) → ∀ x ∈ os, p.again x :=
    fun hagain x hx => hagain x (hos ▸ List.mem_append_left _ hx)
  cases st with
  | waiting ended resumesAt => exact hall hinv.2.2
  | trying ended => exact hall hinv.2.2
  | done o' =>
    obtain ⟨os', hos', _, hagain, _⟩ := hinv
    obtain ⟨rfl, _⟩ := List.append_inj' (hos.symm.trans hos') rfl
    exact hagain

/-- An attempt that has begun ends before anything else happens. -/
theorem RetryPolicy.ends_of_begins {t : ℕ} {e : LoopEvent ο} {rest : List (LoopEvent ο)}
    (h : run p.next .start (es ++ .begins t :: e :: rest) = some st) : ∃ t' o, e = .ends t' o := by
  obtain ⟨st₁, _, htail⟩ := run_append_eq_some.1 h
  obtain ⟨st₂, hbegin, htail⟩ := run_cons_eq_some.1 htail
  obtain ⟨st₃, hnext, _⟩ := run_cons_eq_some.1 htail
  cases e with
  | ends t' o => exact ⟨t', o, rfl⟩
  | begins t' =>
    cases st₁ with
    | waiting ended resumesAt =>
      simp only [RetryPolicy.next] at hbegin
      split at hbegin
      · cases hbegin
        cases hnext
      · cases hbegin
    | trying ended => cases hbegin
    | done o => cases hbegin

/-- Before an attempt begins, the one before it has ended with an outcome that asks for it. -/
theorem RetryPolicy.again_of_begins {t : ℕ} {e : LoopEvent ο} {rest : List (LoopEvent ο)}
    (h : run p.next .start (es ++ e :: .begins t :: rest) = some st) :
    ∃ t' o, e = .ends t' o ∧ p.again o := by
  obtain ⟨st₁, _, htail⟩ := run_append_eq_some.1 h
  obtain ⟨st₂, hnext, htail⟩ := run_cons_eq_some.1 htail
  obtain ⟨st₃, hbegin, _⟩ := run_cons_eq_some.1 htail
  cases st₂ with
  | trying ended => cases hbegin
  | done o => cases hbegin
  | waiting ended resumesAt =>
    cases st₁ with
    | done o => cases hnext
    | waiting ended' resumesAt' =>
      cases e with
      | ends t' o => cases hnext
      | begins t' =>
        simp only [RetryPolicy.next] at hnext
        split at hnext <;> cases hnext
    | trying ended' =>
      cases e with
      | begins t' => cases hnext
      | ends t' o =>
        simp only [RetryPolicy.next] at hnext
        split at hnext
        · rename_i hgo
          simp only [Bool.and_eq_true] at hgo
          exact ⟨t', o, rfl, hgo.1⟩
        · cases hnext

/-- Between the end of an attempt and the begin of the next one the loop has waited. -/
theorem RetryPolicy.wait_le {t t' : ℕ} {o : ο} {rest : List (LoopEvent ο)}
    (hlimit : 0 < p.limit)
    (h : run p.next .start (es ++ .ends t o :: .begins t' :: rest) = some st) :
    t + p.wait (attemptsIn es) ≤ t' := by
  obtain ⟨st₁, hes, htail⟩ := run_append_eq_some.1 h
  obtain ⟨st₂, hend, htail⟩ := run_cons_eq_some.1 htail
  obtain ⟨st₃, hbegin, _⟩ := run_cons_eq_some.1 htail
  have hinv := RetryPolicy.explains_of_run hlimit hes
  cases st₁ with
  | waiting ended resumesAt => cases hend
  | done o' => cases hend
  | trying ended =>
    simp only [RetryPolicy.next] at hend
    split at hend
    · cases hend
      simp only [RetryPolicy.next] at hbegin
      split at hbegin
      · rw [hinv.1]
        assumption
      · cases hbegin
    · cases hend
      cases hbegin

end EventPipeline.Computation

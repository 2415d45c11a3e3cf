import EventPipeline.Interface.AttemptRows
import EventPipeline.Analysis.DeliveredIsFinal

/-!
# Delivery records are consistent

The status of a delivery row goes with the columns that record the outcome. Each writer sets
the status together with the columns that the status is about, so the relation holds after
its write whatever the row was before. What a writer relies on is in its own local state: a
worker writes a result that `deliver` has returned, and a retry writes `pending` over a
status that it has read as `dead` or `failed`.
-/

set_option autoImplicit false

namespace EventPipeline.Analysis

open EventPipeline.Model EventPipeline.Program EventPipeline.Interface EventPipeline.Computation

/-- The relation between the status of a row and its outcome columns.
SOURCE: app/db/models.py:71-78 -/
structure Consistent (row : DeliveryAttempt) : Prop where
  delivered : row.status = .delivered →
    (∃ code, row.lastHttpStatus = some code ∧ 200 ≤ code ∧ code < 300) ∧
      row.lastError = none ∧ row.lastAttemptAt ≠ none ∧ 1 ≤ row.attemptCount
  undelivered : row.status = .failed ∨ row.status = .dead →
    ∃ text, row.lastError = some text ∧ text ≠ []

/-- A success has a 2xx status. -/
def ResultOk (r : DeliveryResult) : Prop :=
  r.success = true → ∃ code, r.statusCode = some code ∧ 200 ≤ code ∧ code < 300

structure RecordInv (d : Delivery) : Prop where
  row : ∀ row ∈ d.attempts, Consistent row
  result : ∀ w a r at' todo, (d.workers w).phase = .posted a r at' todo → ResultOk r
  loaded : ∀ q a, d.retries q = .loaded a → retryable a = true

/-! ## What the writers write -/

/-- A row that is neither finished nor failed. -/
theorem consistent_of_open {row : DeliveryAttempt}
    (h : row.status = .pending ∨ row.status = .inFlight) : Consistent row := by
  constructor
  · intro hd
    simp [hd] at h
  · rintro (hu | hu)
    · simp [hu] at h
    · simp [hu] at h

/-- SOURCE: app/delivery/sender.py:65-90 -/
theorem resultOk_of_deliver {o : PostOutcome} {r : DeliveryResult} (h : deliver o = some r) :
    ResultOk r := by
  intro hs
  cases o with
  | response statusCode text =>
    cases h
    simp only [Bool.and_eq_true, decide_eq_true_eq] at hs
    exact ⟨statusCode, rfl, hs⟩
  | timeout exc =>
    cases h
    cases hs
  | requestError exc =>
    cases h
    cases hs
  | raised => cases h

/-- The text for a status code is not empty. SOURCE: app/delivery/worker.py:138,152 -/
theorem httpText_ne_nil (statusCode : Option ℕ) : httpText statusCode ≠ [] := by
  simp [httpText, py]

/-- The stored text of a failure is never empty. SOURCE: app/delivery/worker.py:138,151 -/
theorem errorText_ne_nil (r : DeliveryResult) : errorText r ≠ [] := by
  unfold errorText
  split
  · split
    · exact httpText_ne_nil _
    · rename_i he
      simpa using he
  · exact httpText_ne_nil _

/-- The final update sets all the columns that its status is about.
SOURCE: app/delivery/worker.py:126-172 -/
theorem consistent_apply {cfg : Settings} {a row : DeliveryAttempt} {r : DeliveryResult}
    {now : Time} {k : Draw} {u : FinalUpdate} (hr : ResultOk r)
    (h : finalUpdate cfg a r now k = some u) : Consistent (u.apply a r now row) := by
  unfold finalUpdate at h
  by_cases hs : r.success = true
  · rw [if_pos hs] at h
    cases h
    exact ⟨fun _ => ⟨hr hs, rfl, nofun, Nat.succ_pos _⟩, by simp [FinalUpdate.apply]⟩
  · rw [if_neg hs] at h
    split at h
    · cases h
      exact ⟨nofun, fun _ => ⟨_, rfl, errorText_ne_nil r⟩⟩
    · obtain ⟨delay, _, rfl⟩ := Option.map_eq_some_iff.1 h
      exact ⟨nofun, fun _ => ⟨_, rfl, errorText_ne_nil r⟩⟩

/-- The status that a retry has read is not `pending`, so its flush writes the column.
SOURCE: app/api/deliveries.py:60-69 -/
theorem status_retryRow {a row : DeliveryAttempt} {now : Time} (h : retryable a = true) :
    (retryRow a now row).status = .pending := by
  have hne : a.status ≠ .pending := by
    intro heq
    simp [retryable, heq] at h
  exact flushColumn_of_ne _ hne

/-! ## Every step keeps the invariant -/

section
variable {cfg : Settings} {s s' : World} {a : Action}

/-- Each writer leaves a consistent row. -/
theorem consistent_of_attemptStep {row row' : DeliveryAttempt} (hinv : RecordInv s.delivery)
    (hrow : row ∈ s.delivery.attempts) (h : AttemptStep cfg s a row row') : Consistent row' := by
  cases h with
  | same => exact hinv.row row hrow
  | mark _ _ => exact consistent_of_open (Or.inr rfl)
  | close _ _ _ => exact ⟨nofun, fun _ => ⟨inactiveError, rfl, by decide⟩⟩
  | writeBack hph _ _ hu => exact consistent_apply (hinv.result _ _ _ _ _ hph) hu
  | reset _ => exact ⟨nofun, fun _ => ⟨resetError, rfl, by decide⟩⟩
  | retry hr _ _ => exact consistent_of_open (Or.inl (status_retryRow (hinv.loaded _ _ hr)))

/-- A result that a worker holds is consistent. SOURCE: app/delivery/sender.py:65-90 -/
theorem result_of_step (hinv : RecordInv s.delivery) (hs : step cfg s a = some s') {w : WorkerId}
    {x : Snapshot} {r : DeliveryResult} {at' : Time} {todo : List Snapshot}
    (hph : (s'.delivery.workers w).phase = .posted x r at' todo) : ResultOk r := by
  obtain hkeep | ⟨b, d, rfl, rfl, h⟩ := worker_of_step hs w
  · exact hinv.result w x r at' todo (hkeep ▸ hph)
  · cases h with
    | returned _ hr =>
      simp only [Delivery.setPhase_eq, Delivery.setWorker_workers, Function.update_self] at hph
      cases hph
      exact resultOk_of_deliver hr
    | resetStale _ => exact hinv.result w x r at' todo hph
    | _ =>
      simp only [Delivery.setPhase_eq, Delivery.setWorker_workers, Function.update_self] at hph
      cases hph

/-- A retry request has loaded a row that may be retried. SOURCE: app/api/deliveries.py:54-63 -/
theorem loaded_of_step (hinv : RecordInv s.delivery) (hs : step cfg s a = some s')
    {q : RequestId} {x : DeliveryAttempt} (hq : s'.delivery.retries q = .loaded x) :
    retryable x = true := by
  have hkeep : s'.delivery.retries = s.delivery.retries → retryable x = true :=
    fun heq => hinv.loaded q x (heq ▸ hq)
  have hmove : ∀ (q' : RequestId) (y : Retry),
      s'.delivery.retries = Function.update s.delivery.retries q' y →
      (y = .loaded x → retryable x = true) → retryable x = true := by
    intro q' y heq hy
    rw [heq] at hq
    by_cases hq' : q = q'
    · rw [hq', Function.update_self] at hq
      exact hy hq
    · rw [Function.update_of_ne hq'] at hq
      exact hinv.loaded q x hq
  cases worldStep_of_eq_some hs with
  | worker h => cases h <;> exact hkeep rfl
  | retry h =>
    cases h with
    | load _ _ ha =>
      refine hmove _ _ rfl fun heq => ?_
      cases heq
      exact ha
    | refuse => exact hkeep rfl
    | commit _ _ => exact hmove _ _ rfl nofun
    | abort => exact hmove _ _ rfl nofun
  | _ => exact hkeep rfl

/-- Every row is consistent, in every reachable state. -/
theorem recordInv_of_reachable (h : Reachable (step cfg) World.init s) :
    RecordInv s.delivery := by
  refine h.induct (I := fun s => RecordInv s.delivery) ?_ ?_
  · refine ⟨fun _ hrow => absurd hrow List.not_mem_nil, fun _ _ _ _ _ hph => ?_, fun _ _ hq => ?_⟩
    · cases hph
    · cases hq
  · intro s a s' _ hinv hs
    refine ⟨fun row' hrow' => ?_, fun w x r at' todo hph => result_of_step hinv hs hph,
      fun q x hq => loaded_of_step hinv hs hq⟩
    obtain ⟨row, hrow, hstep⟩ | ⟨hnew, _⟩ := (attemptsStep_of_step hs).of_mem hrow'
    · exact consistent_of_attemptStep hinv hrow hstep
    · exact consistent_of_open (Or.inl hnew.status)

end

/-! ## The result -/

/-- In every reachable state, whatever the interleaving, each delivery row has the outcome
columns that go with its status.
SOURCE: app/delivery/worker.py:36-174, app/delivery/sender.py:65-90, app/api/deliveries.py:50-71 -/
theorem records_consistent (cfg : Settings) (s : World) (h : Reachable (step cfg) World.init s) :
    ∀ row ∈ s.delivery.attempts,
      (row.status = .delivered →
        (∃ code, row.lastHttpStatus = some code ∧ 200 ≤ code ∧ code < 300) ∧
          row.lastError = none ∧ row.lastAttemptAt ≠ none ∧ 1 ≤ row.attemptCount) ∧
      (row.status = .failed ∨ row.status = .dead →
        ∃ text, row.lastError = some text ∧ text ≠ []) := by
  intro row hrow
  obtain ⟨hdelivered, hundelivered⟩ := (recordInv_of_reachable h).row row hrow
  exact ⟨hdelivered, hundelivered⟩

/-- A delivery that fails, and then succeeds. -/
theorem records_consistent_deliveredAlone : ∃ row ∈ deliveredAlone.delivery.attempts,
    row.status = .delivered ∧ row.lastError = none := by
  have hrow : ∃ row ∈ deliveredAlone.delivery.attempts, row.status = .delivered := by
    decide +kernel
  obtain ⟨row, hrow, hstatus⟩ := hrow
  exact ⟨row, hrow, hstatus, ((records_consistent .default deliveredAlone
    (Reachable.of_run deliveredAlone_enabled) row hrow).1 hstatus).2.1⟩

end EventPipeline.Analysis

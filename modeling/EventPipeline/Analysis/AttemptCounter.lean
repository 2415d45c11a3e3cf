import EventPipeline.Computation.History
import EventPipeline.Analysis.ClaimLocks

/-!
# The attempt counter is bounded

A worker writes the counter of its snapshot plus one and never looks at the counter in the
table. The bound is therefore an invariant of the rows and of all snapshots: a row that is
not finished, and a snapshot of any worker, leave room for one more attempt. A retry makes
a finished row open again and raises the bound of that row by one.
-/

set_option autoImplicit false

namespace EventPipeline.Analysis

open EventPipeline.Model EventPipeline.Program EventPipeline.Interface EventPipeline.Computation

def Unfinished (row : DeliveryAttempt) : Prop :=
  row.status = .pending ∨ row.status = .failed ∨ row.status = .inFlight

/-- A row that is open is not finished. -/
theorem Open.unfinished {row : DeliveryAttempt} (h : Open row) : Unfinished row := by
  obtain h | h := h
  · exact Or.inl h
  · exact Or.inr (Or.inl h)

/-- The rows of the committed `retry_delivery` calls of a run, one entry for each call.
SOURCE: app/api/deliveries.py:65-69 -/
def committedRetries (cfg : Settings) (as : List Action) : List Uuid :=
  history (step cfg) (fun s a => retried s.delivery a) World.init as

/-- The bound on the counter of a row that was retried `retries` times. -/
structure CountOk (cfg : Settings) (retries : ℕ) (row : DeliveryAttempt) : Prop where
  le : row.attemptCount ≤ cfg.deliveryMaxAttempts + retries
  lt : Unfinished row → row.attemptCount + 1 ≤ cfg.deliveryMaxAttempts + retries

/-- SOURCE: app/delivery/worker.py:36-174, app/api/deliveries.py:50-71 -/
structure CountInv (cfg : Settings) (s : World) (log : List Uuid) : Prop where
  row : ∀ row ∈ s.delivery.attempts, CountOk cfg (log.count row.id) row
  snapshot : ∀ w, ∀ x ∈ (s.delivery.workers w).phase.batch,
    x.attempt.attemptCount + 1 ≤ cfg.deliveryMaxAttempts + log.count x.attempt.id

section
variable {cfg : Settings} {s : World} {log : List Uuid} {a : Action}

/-- A failed row has had fewer attempts than the maximum. SOURCE: app/delivery/worker.py:134-158 -/
theorem attempt_lt_of_failed {attempt : DeliveryAttempt} {r : DeliveryResult} {now : Time} {k : Draw}
    {u : FinalUpdate} (h : finalUpdate cfg attempt r now k = some u)
    (hu : u.status ≠ .delivered ∧ u.status ≠ .dead) :
    attempt.attemptCount + 1 < cfg.deliveryMaxAttempts := by
  unfold finalUpdate at h
  split at h
  · cases h
    exact absurd rfl hu.1
  · split at h
    · cases h
      exact absurd rfl hu.2
    · omega

/-- Every write of a row keeps the bound. -/
theorem CountOk.step {row row' : DeliveryAttempt} (hlock : LockInv s.delivery)
    (hinv : CountInv cfg s log) (hrow : row ∈ s.delivery.attempts)
    (h : AttemptStep cfg s a row row') :
    CountOk cfg ((log ++ retried s.delivery a).count row.id) row' := by
  have hmono : log.count row.id ≤ (log ++ retried s.delivery a).count row.id := by
    rw [List.count_append]
    exact Nat.le_add_right _ _
  obtain ⟨hle, hlt⟩ := hinv.row row hrow
  cases h with
  | same => exact ⟨by omega, fun hu => (hlt hu).trans (by omega)⟩
  | mark hph hid =>
    have hopen : Open row := hlock.open_of_picked hph hrow hid
    have hroom := hlt hopen.unfinished
    exact ⟨by simp only; omega, fun _ => by simp only; omega⟩
  | close _ _ _ =>
    refine ⟨by simp only; omega, ?_⟩
    rintro (h | h | h) <;> cases h
  | @writeBack w x r at' k todo u _ hph _ hid hu =>
    have hroom : x.attempt.attemptCount + 1 ≤ cfg.deliveryMaxAttempts + log.count row.id := by
      rw [hid]
      exact hinv.snapshot w x (by rw [hph]; exact List.mem_cons_self)
    refine ⟨by simp only [FinalUpdate.apply]; omega, fun hopen => ?_⟩
    have hfailed : u.status ≠ .delivered ∧ u.status ≠ .dead := by
      have hst : u.status = .pending ∨ u.status = .failed ∨ u.status = .inFlight := hopen
      refine ⟨fun h => ?_, fun h => ?_⟩
      · rw [h] at hst
        simp at hst
      · rw [h] at hst
        simp at hst
    have hless := attempt_lt_of_failed hu hfailed
    simp only [FinalUpdate.apply]
    omega
  | reset hst =>
    simp only [staleInFlight, Bool.and_eq_true, decide_eq_true_eq] at hst
    have hroom := hlt (Or.inr (Or.inr hst.1))
    exact ⟨by simp only; omega, fun _ => by simp only; omega⟩
  | @retry r x _ hr _ hid =>
    have hone : (log ++ retried s.delivery (.retry r .commit)).count row.id =
        log.count row.id + 1 := by
      rw [List.count_append]
      simp [retried, hr, hid]
    rw [hone]
    exact ⟨by simp only [retryRow]; omega, fun _ => by simp only [retryRow]; omega⟩

/-- One step keeps the bound on the counters. SOURCE: app/delivery/worker.py:126-174,
app/api/deliveries.py:54-69 -/
theorem countInv_step {s' : World} (hM : 1 ≤ cfg.deliveryMaxAttempts)
    (hlock : LockInv s.delivery) (hinv : CountInv cfg s log) (hs : step cfg s a = some s') :
    CountInv cfg s' (log ++ retried s.delivery a) := by
  constructor
  · intro row' hrow'
    obtain ⟨row, hrow, hstep⟩ | ⟨hnew, _⟩ := (attemptsStep_of_step hs).of_mem hrow'
    · rw [hstep.identity.1]
      exact CountOk.step hlock hinv hrow hstep
    · have hzero := hnew.attemptCount
      exact ⟨by omega, fun _ => by omega⟩
  · intro w x hx
    have hold : x ∈ (s.delivery.workers w).phase.batch → x.attempt.attemptCount + 1 ≤
        cfg.deliveryMaxAttempts + (log ++ retried s.delivery a).count x.attempt.id := by
      intro hx
      have hroom := hinv.snapshot w x hx
      rw [List.count_append]
      omega
    obtain hx | ⟨t₀, picks, id, _, _, hsnap, hc⟩ := batch_of_step hs hx
    · exact hold hx
    · -- A snapshot is taken of a claimable row.
      obtain ⟨hrow, _⟩ := of_snapshotOf hsnap
      have hroom := (hinv.row _ hrow).lt (open_of_claimable hc).unfinished
      rw [List.count_append]
      omega

/-- The bound on the counters holds after every run. -/
theorem countInv_of_run {as : List Action} (hM : 1 ≤ cfg.deliveryMaxAttempts)
    (h : run (Program.step cfg) World.init as = some s) :
    CountInv cfg s (committedRetries cfg as) := by
  refine history_induct (I := CountInv cfg) ?_ ?_ h
  · exact ⟨fun _ h => absurd h List.not_mem_nil, fun _ _ h => absurd h List.not_mem_nil⟩
  · intro s log a s' hreach hinv hs
    exact countInv_step hM (lockInv_of_reachable hreach) hinv hs

/-- Under every schedule the counter of a row is at most the maximum plus the number of
committed retries of that row, and one less while the row is not finished.
SOURCE: app/delivery/worker.py:36-174, app/api/deliveries.py:50-71 -/
theorem attemptCount_bounded (cfg : Settings) (as : List Action) (s : World)
    (hM : 1 ≤ cfg.deliveryMaxAttempts) (h : run (step cfg) World.init as = some s) :
    ∀ row ∈ s.delivery.attempts,
      row.attemptCount ≤ cfg.deliveryMaxAttempts + (committedRetries cfg as).count row.id ∧
      (row.status = .pending ∨ row.status = .failed ∨ row.status = .inFlight →
        row.attemptCount ≤
          cfg.deliveryMaxAttempts - 1 + (committedRetries cfg as).count row.id) := by
  have hinv := countInv_of_run hM h
  intro row hrow
  obtain ⟨hle, hlt⟩ := hinv.row row hrow
  exact ⟨hle, fun hu => by have hroom := hlt hu; omega⟩

end

/-! ## A concrete history -/

def oneTry : Settings := { Settings.default with deliveryMaxAttempts := 1 }

/-- The only allowed attempt fails, a retry opens the row again, and it fails again. -/
def failRetryFail : List Action :=
  oneAttempt ++ claimBatch 0 0 [⟨3⟩] ++ deliverNext 0 (.response 500 none) 0 ++
  [.worker 0 .finish, .retry 0 (.select ⟨3⟩), .retry 0 .commit] ++
  claimBatch 0 0 [⟨3⟩] ++ deliverNext 0 (.response 500 none) 0

theorem failRetryFail_enabled : (run (step oneTry) World.init failRetryFail).isSome = true := by
  decide

/-- The bound is reached. -/
theorem attemptCount_bounded_failRetryFail :
    ∃ row ∈ ((run (step oneTry) World.init failRetryFail).get failRetryFail_enabled).delivery.attempts,
      row.attemptCount = 2 ∧ row.attemptCount ≤ 1 + (committedRetries oneTry failRetryFail).count ⟨3⟩ :=
  ⟨_, List.Mem.head _, rfl, (attemptCount_bounded oneTry failRetryFail _ (by decide)
    (Option.some_get failRetryFail_enabled).symm _ (List.Mem.head _)).1⟩

end EventPipeline.Analysis

import EventPipeline.Analysis.ClaimLocks

/-!
# `delivered` is final

The final update of a worker and the UPDATE of `retry_delivery` are keyed by the id alone and
do not look at the status again. In a run where each of them still finds the status that its
writer has read, no step changes a row that is `delivered`, and no claim picks it.
-/

set_option autoImplicit false

namespace EventPipeline.Analysis

open EventPipeline.Model EventPipeline.Program EventPipeline.Interface EventPipeline.Computation

/-- A final update finds its row still `in_flight`, and a retry finds its row still `dead` or
`failed`. -/
def FindsStatusRead (s : World) (a : Action) : Prop :=
  ∀ row ∈ s.delivery.attempts, (row.id ∈ finalises s.delivery a → row.status = .inFlight) ∧
    (row.id ∈ retried s.delivery a → retryable row = true)

instance (s : World) (a : Action) : Decidable (FindsStatusRead s a) :=
  inferInstanceAs (Decidable (∀ row ∈ s.delivery.attempts, _ ∧ _))

/-- A step that meets the condition leaves a `delivered` row as it is.
SOURCE: app/delivery/worker.py:36-55,83-89,109-117,160-174, app/api/deliveries.py:60-69 -/
theorem delivered_kept {cfg : Settings} {s : World} {a : Action} {row row' : DeliveryAttempt}
    (hinv : LockInv s.delivery) (hC : FindsStatusRead s a) (hrow : row ∈ s.delivery.attempts)
    (hd : row.status = .delivered) (h : AttemptStep cfg s a row row') : row' = row := by
  obtain ⟨hfinal, hretry⟩ := hC row hrow
  cases h with
  | same => rfl
  | mark hph hid =>
    -- The claim has the row locked.
    have hopen : Open row := hinv.open_of_picked hph hrow hid
    exact absurd hd hopen.ne_delivered
  | close hph _ hid =>
    have hin := hfinal (by simp only [finalises, hph, hid, List.mem_singleton])
    rw [hd] at hin
    cases hin
  | writeBack hph _ hid _ =>
    have hin := hfinal (by simp only [finalises, hph, hid, List.mem_singleton])
    rw [hd] at hin
    cases hin
  | reset hst =>
    simp only [staleInFlight, hd, Bool.and_eq_true, decide_eq_true_eq] at hst
    cases hst.1
  | retry hr _ hid =>
    have hin := hretry (by simp only [retried, hr, hid, List.mem_singleton])
    simp only [retryable, hd, Bool.or_eq_true, decide_eq_true_eq] at hin
    obtain h | h := hin <;> cases h

def KeepsDelivered (s s' : World) : Prop :=
  ∀ row ∈ s.delivery.attempts, row.status = .delivered →
    ∃ row' ∈ s'.delivery.attempts, row'.id = row.id ∧ row'.status = .delivered

/-- A claim picks no row that is `delivered`. SOURCE: app/delivery/worker.py:67-70 -/
theorem not_picked_of_delivered {cfg : Settings} {s s' : World} {w : WorkerId} {t₀ : Time}
    {picks : List Uuid} (hinv : LockInv s.delivery)
    (hs : step cfg s (.worker w (.claim t₀ picks)) = some s') {row : DeliveryAttempt}
    (hrow : row ∈ s.delivery.attempts) (hd : row.status = .delivered) : row.id ∉ picks := by
  intro hmem
  cases worldStep_of_eq_some hs with
  | worker h =>
    cases h with
    | claim _ _ _ _ _ hp =>
      obtain ⟨_, x, hx, hc⟩ := hp row.id hmem
      obtain ⟨hx, hid, _⟩ := of_snapshotOf hx
      rw [eq_of_key_eq hinv.ids_nodup hx hrow hid] at hc
      exact absurd hd (open_of_claimable hc).ne_delivered

/-- In a run where every writer still finds the status it has read, a `delivered` row stays
`delivered`, and no later claim picks it.
SOURCE: app/delivery/worker.py:36-174, app/api/deliveries.py:50-71 -/
theorem delivered_is_final (cfg : Settings) (s s' : World) (row : DeliveryAttempt)
    (h : ReachableIf (step cfg) FindsStatusRead World.init s)
    (h' : ReachableIf (step cfg) FindsStatusRead s s')
    (hrow : row ∈ s.delivery.attempts) (hd : row.status = .delivered) :
    row.id ∈ s'.delivery.attempts.map DeliveryAttempt.id ∧
    (∀ row' ∈ s'.delivery.attempts, row'.id = row.id → row'.status = .delivered) ∧
    ∀ w t₀ picks s'', step cfg s' (.worker w (.claim t₀ picks)) = some s'' → row.id ∉ picks := by
  have hkeep : KeepsDelivered s s' := by
    refine ReachableIf.rel ?_ ?_ ?_ h h'
    · exact fun _ row hrow hd => ⟨row, hrow, rfl, hd⟩
    · intro x y z hxy hyz row hrow hd
      obtain ⟨row', hrow', hid', hd'⟩ := hxy row hrow hd
      obtain ⟨row'', hrow'', hid'', hd''⟩ := hyz row' hrow' hd'
      exact ⟨row'', hrow'', hid''.trans hid', hd''⟩
    · intro m a m' hreach hC hs row hrow hd
      obtain ⟨row', hrow', hstep⟩ := (attemptsStep_of_step hs).exists_row hrow
      have hinv := lockInv_of_reachable hreach.reachable
      obtain rfl := delivered_kept hinv hC hrow hd hstep
      exact ⟨row', hrow', rfl, hd⟩
  have hinv := lockInv_of_reachable (h.trans h').reachable
  obtain ⟨row', hrow', hid', hd'⟩ := hkeep row hrow hd
  refine ⟨hid' ▸ List.mem_map_of_mem hrow', fun row'' hrow'' hid'' => ?_, ?_⟩
  · rwa [eq_of_key_eq hinv.ids_nodup hrow'' hrow' (hid''.trans hid'.symm)]
  · intro w t₀ picks s'' hs
    rw [← hid']
    exact not_picked_of_delivered hinv hs hrow' hd'

/-! ## Concrete histories -/

/-- One subscriber and one event; the first delivery fails. -/
def firstDeliveryFails : List Action :=
  [.subscriber 0 (.create ⟨1⟩ (py "http://a") (py "s")),
    .publish 0 (eventBody (py "m") (py "e") (.obj []))] ++
  acceptance 0 ⟨2⟩ [⟨3⟩] ++ claimBatch 0 0 [⟨3⟩] ++ deliverNext 0 (.response 500 none) 0 ++
  [.worker 0 .finish]

def secondDelivery : List Action :=
  claimBatch 0 0 [⟨3⟩] ++ deliverNext 0 (.response 200 none) 0 ++ [.worker 0 .finish]

theorem deliveredAlone_enabled :
    (run (step .default) World.init (firstDeliveryFails ++ secondDelivery)).isSome = true := by
  decide +kernel

def deliveredAlone : World :=
  (run (step .default) World.init (firstDeliveryFails ++ secondDelivery)).get deliveredAlone_enabled

/-- The row is delivered, and no claim picks it again. -/
theorem delivered_is_final_deliveredAlone : ∃ row ∈ deliveredAlone.delivery.attempts,
    row.status = .delivered ∧ ∀ w t₀ picks s'',
      step .default deliveredAlone (.worker w (.claim t₀ picks)) = some s'' → row.id ∉ picks := by
  have hrow : ∃ row ∈ deliveredAlone.delivery.attempts, row.status = .delivered := by
    decide +kernel
  obtain ⟨row, hrow, hstatus⟩ := hrow
  exact ⟨row, hrow, hstatus, (delivered_is_final .default deliveredAlone deliveredAlone row
    (ReachableIf.of_run deliveredAlone_enabled (by decide +kernel)) (ReachableIf.refl _)
    hrow hstatus).2.2⟩

/-- `retry_delivery` reads the failed row; before its commit the second delivery succeeds. -/
def retryRaces : List Action :=
  firstDeliveryFails ++ [.retry 0 (.select ⟨3⟩)] ++ secondDelivery

theorem retryRaces_enabled : (run (step .default) World.init retryRaces).isSome = true := by
  decide +kernel

def deliveredInRace : World := (run (step .default) World.init retryRaces).get retryRaces_enabled

theorem retryCommits_enabled :
    (run (step .default) deliveredInRace [.retry 0 .commit]).isSome = true := by decide +kernel

/-- The one row of the history, before and after the commit of the retry. -/
theorem retryCommits_rows : ∃ row ∈ deliveredInRace.delivery.attempts, row.status = .delivered ∧
    ∃ row' ∈ ((run (step .default) deliveredInRace [.retry 0 .commit]).get
      retryCommits_enabled).delivery.attempts, row'.id = row.id ∧ row'.status = .pending := by
  decide +kernel

/-- The retry takes the delivered row back to `pending`, although `retry_delivery` refuses a
row that is not `dead` or `failed`. SOURCE: app/api/deliveries.py:60-69 -/
theorem delivered_is_not_final :
    ¬ ∀ (s s' : World) (row : DeliveryAttempt), Reachable (step .default) World.init s →
      Reachable (step .default) s s' → row ∈ s.delivery.attempts → row.status = .delivered →
      ∀ row' ∈ s'.delivery.attempts, row'.id = row.id → row'.status = .delivered := by
  intro h
  obtain ⟨row, hrow, hdelivered, row', hrow', hid, hpending⟩ := retryCommits_rows
  have hfinal := h deliveredInRace _ row (Reachable.of_run retryRaces_enabled)
    (Reachable.of_run retryCommits_enabled) hrow hdelivered row' hrow' hid
  rw [hpending] at hfinal
  cases hfinal

end EventPipeline.Analysis

import EventPipeline.Analysis.ClaimLocks
import EventPipeline.Analysis.DeliveryEvidence
import EventPipeline.Computation.Queries
import EventPipeline.Program.Metrics

/-!
# The delivery counters and the delivery records

A result is counted before it is written back, and the write-back may be lost or overwritten. So
the counters are never behind the table: each POST is counted once when it is made and once by
its result, and a row that shows a result has been counted under it, a failed one with the label
of its `last_http_status`. In one process the attempts are the results, the calls of `deliver`
that have raised and the call that is still running.
-/

set_option autoImplicit false

namespace EventPipeline.Analysis

open EventPipeline.Model EventPipeline.Program EventPipeline.Interface EventPipeline.Computation

/-- The value of a counter after the increments of a log. -/
def counterValue {κ : Type} (log : List (κ × Option Counter)) (c : Counter) : ℕ :=
  (log.map Prod.snd).count (some c)

def countsFailure : Counter → Bool
  | .deliveriesFailed _ => true
  | _ => false

/-- `delivery_failures_total` summed over its label. -/
def failuresTotal {κ : Type} (log : List (κ × Option Counter)) : ℕ :=
  (log.map Prod.snd).countP fun c => c.any countsFailure

/-- A sample of the counter adds one. -/
@[simp] theorem counterValue_cons {κ : Type} (e : κ × Option Counter)
    (log : List (κ × Option Counter)) (c : Counter) :
    counterValue (e :: log) c = counterValue log c + if e.2 = some c then 1 else 0 := by
  simp [counterValue, List.count_cons]

/-- A sample of a failure adds one, whatever its label. -/
@[simp] theorem failuresTotal_cons {κ : Type} (e : κ × Option Counter)
    (log : List (κ × Option Counter)) :
    failuresTotal (e :: log) = failuresTotal log + if e.2.any countsFailure then 1 else 0 := by
  simp [failuresTotal, List.countP_cons]

/-- The value after two logs is the sum. -/
theorem counterValue_append {κ : Type} (log log' : List (κ × Option Counter)) (c : Counter) :
    counterValue (log ++ log') c = counterValue log c + counterValue log' c := by
  simp [counterValue]

/-- Deliveries that have each been counted are no more than the counter. -/
theorem countP_le_counterValue {t : List DeliveryAttempt} {p : DeliveryAttempt → Bool}
    {log : List (Uuid × Option Counter)} {c : Counter} (hn : (t.map DeliveryAttempt.id).Nodup)
    (h : ∀ row ∈ t, p row = true → (row.id, some c) ∈ log) : t.countP p ≤ counterValue log c :=
  countP_le_count hn h

/-! ## The results that are counted -/

/-- Whether the results that a counter counts are successes. -/
def counterOutcome : Counter → Option Bool
  | .deliveriesSucceeded => some true
  | .deliveriesFailed _ | .deliveriesDead => some false
  | _ => none

/-- The result that an increment counts: the delivery, and whether it was a success. -/
def countedResult (e : Uuid × Option Counter) : Option (Uuid × Bool) :=
  (e.2.bind counterOutcome).map fun b => (e.1, b)

/-- The counter of a result tells whether it was a success. SOURCE: app/delivery/worker.py:126-158
-/
theorem countedResult_resultCounter (cfg : Settings) (a : DeliveryAttempt) (r : DeliveryResult) :
    countedResult (a.id, some (resultCounter cfg a r)) = some (a.id, r.success) := by
  unfold resultCounter
  by_cases hs : r.success = true
  · rw [if_pos hs, hs]
    rfl
  · have hfalse : r.success = false := Bool.eq_false_iff.2 hs
    rw [if_neg hs, hfalse]
    split <;> rfl

/-- A POST that returns is counted by its result. SOURCE: app/delivery/worker.py:123-147 -/
theorem returnedPost_eq (cfg : Settings) (s : World) (a : Action) :
    returnedPost s.delivery a = (deliverySample cfg s a).filterMap countedResult := by
  cases a with
  | worker w b =>
    cases b with
    | post =>
      simp only [returnedPost, deliverySample, workerSamples]
      split <;> rfl
    | postEnds o =>
      simp only [returnedPost, deliverySample, workerSamples]
      cases (s.delivery.workers w).phase with
      | posting x _ _ =>
        cases deliver o with
        | none => rfl
        | some r =>
          simp only [Option.map_some, List.filterMap_cons, countedResult_resultCounter,
            List.filterMap_nil]
      | _ => rfl
    | _ => rfl
  | _ => rfl

/-- The results that are counted are those of the POSTs that have returned. -/
theorem returnedPosts_eq (cfg : Settings) (as : List Action) :
    returnedPosts cfg as = (deliverySamples cfg as).filterMap countedResult := by
  rw [returnedPosts, deliverySamples, ← history_filterMap]
  congr
  funext s a
  exact returnedPost_eq cfg s a

/-- Each result is counted by one of the three counters. -/
theorem results_counted (log : List (Uuid × Option Counter)) :
    counterValue log .deliveriesSucceeded = (log.filterMap countedResult).countP (fun e => e.2) ∧
      failuresTotal log + counterValue log .deliveriesDead =
        (log.filterMap countedResult).countP (fun e => !e.2) := by
  induction log with
  | nil => exact ⟨rfl, rfl⟩
  | cons e log ih =>
    obtain ⟨id, c⟩ := e
    obtain ⟨hsucc, hfail⟩ := ih
    cases c with
    | none => simp [List.filterMap_cons, countedResult, hsucc, hfail]
    | some c =>
      cases c with
      | deliveriesFailed label =>
        simp [countedResult, counterOutcome, countsFailure, hsucc, ← hfail]
        omega
      | deliveriesDead =>
        simp [countedResult, counterOutcome, countsFailure, hsucc, ← hfail]
        omega
      | _ => simp [List.filterMap_cons, countedResult, counterOutcome, countsFailure, hsucc, hfail]

/-! ## The records -/

/-- What a row shows has been counted. SOURCE: app/delivery/worker.py:129-158 -/
structure Recorded (closed reset : List DeliveryAttempt) (log : List (Uuid × Option Counter))
    (row : DeliveryAttempt) : Prop where
  delivered : row.status = .delivered → (row.id, some .deliveriesSucceeded) ∈ log
  dead : row.status = .dead → row ∈ closed ∨ (row.id, some .deliveriesDead) ∈ log
  failed : row.status = .failed → row ∈ reset ∨
    (row.id, some (.deliveriesFailed (statusLabel row.lastHttpStatus))) ∈ log

/-- SOURCE: app/delivery/worker.py:36-174 -/
structure CountedInv (cfg : Settings) (s : World) (closed reset : List DeliveryAttempt)
    (log : List (Uuid × Option Counter)) : Prop where
  row : ∀ row ∈ s.delivery.attempts, Recorded closed reset log row
  result : ∀ w x r at' todo, (s.delivery.workers w).phase = .posted x r at' todo →
    (x.attempt.id, some (resultCounter cfg x.attempt r)) ∈ log
  attempts : counterValue log .deliveriesAttempted = s.delivery.posts.length

section
variable {cfg : Settings} {s s' : World} {log log' : List (Uuid × Option Counter)} {a : Action}
  {closed closed' reset reset' : List DeliveryAttempt}

/-- Further entries do not take anything away. -/
theorem Recorded.mono {row : DeliveryAttempt} (h : Recorded closed reset log row)
    (hclosed : closed ⊆ closed') (hreset : reset ⊆ reset') (hsub : log ⊆ log') :
    Recorded closed' reset' log' row :=
  ⟨fun hst => hsub (h.delivered hst),
    fun hst => (h.dead hst).imp (fun hmem => hclosed hmem) fun hmem => hsub hmem,
    fun hst => (h.failed hst).imp (fun hmem => hreset hmem) fun hmem => hsub hmem⟩

/-- A row that waits for a worker shows no result. -/
theorem recorded_of_waiting {row : DeliveryAttempt}
    (h : row.status = .pending ∨ row.status = .inFlight) : Recorded closed reset log row := by
  refine ⟨fun hst => ?_, fun hst => ?_, fun hst => ?_⟩
  · simp [hst] at h
  · simp [hst] at h
  · simp [hst] at h

/-- The counter and the final update take the same branch. SOURCE: app/delivery/worker.py:129-158 -/
theorem recorded_apply {x row : DeliveryAttempt} {r : DeliveryResult} {now : Time} {k : Draw}
    {u : FinalUpdate} (hid : row.id = x.id) (hlog : (x.id, some (resultCounter cfg x r)) ∈ log)
    (h : finalUpdate cfg x r now k = some u) :
    Recorded closed reset log (u.apply x r now row) := by
  have hrow : (u.apply x r now row).id = x.id := hid
  unfold resultCounter at hlog
  unfold finalUpdate at h
  by_cases hs : r.success = true
  · rw [if_pos hs] at hlog h
    cases h
    exact ⟨fun _ => hrow ▸ hlog, nofun, nofun⟩
  · rw [if_neg hs] at hlog h
    split at hlog
    · rename_i hM
      rw [if_pos hM] at h
      cases h
      exact ⟨nofun, fun _ => Or.inr (hrow ▸ hlog), nofun⟩
    · rename_i hM
      rw [if_neg hM] at h
      obtain ⟨delay, _, rfl⟩ := Option.map_eq_some_iff.1 h
      exact ⟨nofun, nofun, fun _ => Or.inr (hrow ▸ hlog)⟩

/-- Each writer leaves a row that shows only what has been counted.
SOURCE: app/delivery/worker.py:36-174, app/api/deliveries.py:65-69 -/
theorem Recorded.step {row row' : DeliveryAttempt}
    (hreach : Reachable (Program.step cfg) World.init s)
    (hinv : CountedInv cfg s closed reset log) (hrow : row ∈ s.delivery.attempts)
    (h : AttemptStep cfg s a row row') :
    Recorded (closed ++ closedRows (rowCheck s a)) (reset ++ resetRow cfg s a) log row' := by
  cases h with
  | same =>
    exact (hinv.row row hrow).mono (List.subset_append_left _ _) (List.subset_append_left _ _)
      (List.Subset.refl _)
  | mark _ _ => exact recorded_of_waiting (Or.inr rfl)
  | close hph _ hid =>
    have hmem := mem_closedRows_of_close hreach hrow hph hid
    exact ⟨nofun, fun _ => Or.inl (List.mem_append_right _ hmem), nofun⟩
  | writeBack hph _ hid hu => exact recorded_apply hid (hinv.result _ _ _ _ _ hph) hu
  | reset hst =>
    exact ⟨nofun, nofun, fun _ => Or.inl (List.mem_append_right _ (mem_resetRow hrow hst))⟩
  | retry hr _ _ =>
    exact recorded_of_waiting
      (Or.inl (status_retryRow ((recordInv_of_reachable hreach).loaded _ _ hr)))

/-- A result that waits for its write-back is counted. SOURCE: app/delivery/worker.py:123-147 -/
theorem result_counted (hinv : CountedInv cfg s closed reset log) (hs : Program.step cfg s a = some s')
    {w : WorkerId} {x : Snapshot} {r : DeliveryResult} {at' : Time} {todo : List Snapshot}
    (hph : (s'.delivery.workers w).phase = .posted x r at' todo) :
    (x.attempt.id, some (resultCounter cfg x.attempt r)) ∈ log ++ deliverySample cfg s a := by
  obtain hkeep | ⟨b, d, rfl, rfl, h⟩ := worker_of_step hs w
  · exact List.mem_append_left _ (hinv.result w x r at' todo (hkeep ▸ hph))
  · cases h with
    | returned hposting hr =>
      simp only [Delivery.setPhase_eq, Delivery.setWorker_workers, Function.update_self] at hph
      cases hph
      refine List.mem_append_right _ ?_
      simp only [deliverySample, workerSamples, hposting, hr, Option.map_some]
      exact List.mem_singleton_self _
    | resetStale _ => exact List.mem_append_left _ (hinv.result w x r at' todo hph)
    | _ =>
      simp only [Delivery.setPhase_eq, Delivery.setWorker_workers, Function.update_self] at hph
      cases hph

/-- A result is not counted as an attempt. SOURCE: app/metrics.py:34-49 -/
theorem resultCounter_ne (x : DeliveryAttempt) (r : DeliveryResult) :
    resultCounter cfg x r ≠ .deliveriesAttempted := by
  unfold resultCounter
  split
  · simp
  · split <;> simp

/-- A POST is counted when it is made. SOURCE: app/delivery/worker.py:121-123 -/
theorem posts_counted (hs : Program.step cfg s a = some s') :
    s'.delivery.posts.length =
      s.delivery.posts.length + counterValue (deliverySample cfg s a) .deliveriesAttempted := by
  cases worldStep_of_eq_some hs with
  | worker h =>
    cases h with
    | post hph _ => simp [deliverySample, workerSamples, hph, counterValue]
    | returned hph hr =>
      simp [deliverySample, workerSamples, hph, hr, counterValue, resultCounter_ne]
    | escaped hph hr => simp [deliverySample, workerSamples, hph, hr, counterValue]
    | _ => rfl
  | retry h => cases h <;> rfl
  | _ => rfl

/-- SOURCE: app/delivery/worker.py:36-174 -/
theorem countedInv_step (hreach : Reachable (Program.step cfg) World.init s)
    (hinv : CountedInv cfg s closed reset log) (hs : Program.step cfg s a = some s') :
    CountedInv cfg s' (closed ++ closedRows (rowCheck s a)) (reset ++ resetRow cfg s a)
      (log ++ deliverySample cfg s a) := by
  refine ⟨fun row' hrow' => ?_, fun w x r at' todo hph => result_counted hinv hs hph, ?_⟩
  · obtain ⟨row, hrow, hstep⟩ | ⟨hnew, _⟩ := (attemptsStep_of_step hs).of_mem hrow'
    · exact (Recorded.step hreach hinv hrow hstep).mono (List.Subset.refl _) (List.Subset.refl _)
        (List.subset_append_left _ _)
    · exact recorded_of_waiting (Or.inl hnew.status)
  · rw [counterValue_append, hinv.attempts, posts_counted hs]

/-- Every run leaves rows that show only what it has counted. -/
theorem countedInv_of_run {as : List Action} (h : run (Program.step cfg) World.init as = some s) :
    CountedInv cfg s (closedRows (rowChecks cfg as)) (resetRows cfg as)
      (deliverySamples cfg as) := by
  refine run_induct (I := fun as s => CountedInv cfg s (closedRows (rowChecks cfg as))
    (resetRows cfg as) (deliverySamples cfg as)) ?_ ?_ h
  · refine ⟨fun _ h => absurd h List.not_mem_nil, ?_, rfl⟩
    intro w x r at' todo hph
    cases hph
  · intro as s a s' hrun hinv hs
    rw [rowChecks, resetRows, deliverySamples, history_snoc hrun, history_snoc hrun,
      history_snoc hrun, closedRows_append]
    exact countedInv_step ⟨as, hrun⟩ hinv hs

/-- What the delivery counters say of the POSTs and of the table. -/
structure DeliveriesCounted (cfg : Settings) (as : List Action) (s : World) : Prop where
  attempts : counterValue (deliverySamples cfg as) .deliveriesAttempted = s.delivery.posts.length
  successes : counterValue (deliverySamples cfg as) .deliveriesSucceeded =
    (returnedPosts cfg as).countP fun e => e.2
  failures : failuresTotal (deliverySamples cfg as) +
      counterValue (deliverySamples cfg as) .deliveriesDead =
    (returnedPosts cfg as).countP fun e => !e.2
  delivered : (s.delivery.attempts.countP fun row => row.status = .delivered) ≤
    counterValue (deliverySamples cfg as) .deliveriesSucceeded
  dead : (s.delivery.attempts.countP fun row =>
      row.status = .dead && row ∉ closedRows (rowChecks cfg as)) ≤
    counterValue (deliverySamples cfg as) .deliveriesDead
  /-- the dead rows that are not counted -/
  closed : ∀ row ∈ closedRows (rowChecks cfg as), ClosedInactive (rowChecks cfg as) row
  failed : ∀ label, (s.delivery.attempts.countP fun row =>
      row.status = .failed && row ∉ resetRows cfg as &&
        statusLabel row.lastHttpStatus = label) ≤
    counterValue (deliverySamples cfg as) (.deliveriesFailed label)

/-- Under every schedule each POST is counted once when it is made and once by its result, where
a failure that exhausts the retries counts as dead and not as failed. The rows that show a result
are no more than its counter, for the failed ones label by label; a row that a worker has closed
after a re-fetch of a subscriber that does not receive and a row as a stale reset has left it are
not counted.
SOURCE: app/metrics.py:34-53, app/delivery/worker.py:109-158 -/
theorem deliveries_counted (cfg : Settings) (as : List Action) (s : World)
    (h : run (step cfg) World.init as = some s) : DeliveriesCounted cfg as s := by
  obtain ⟨hrow, _, hattempts⟩ := countedInv_of_run h
  have hn := (lockInv_of_reachable ⟨as, h⟩).ids_nodup
  have hresults := results_counted (deliverySamples cfg as)
  rw [← returnedPosts_eq] at hresults
  refine ⟨hattempts, hresults.1, hresults.2, ?_, ?_, (checkInv_of_run h).closed, fun label => ?_⟩
  · refine countP_le_counterValue hn fun row hmem hst => ?_
    exact (hrow row hmem).delivered (of_decide_eq_true hst)
  · refine countP_le_counterValue hn fun row hmem hst => ?_
    simp only [Bool.and_eq_true, decide_eq_true_eq] at hst
    exact ((hrow row hmem).dead hst.1).resolve_left hst.2
  · refine countP_le_counterValue hn fun row hmem hst => ?_
    simp only [Bool.and_eq_true, decide_eq_true_eq] at hst
    exact hst.2 ▸ ((hrow row hmem).failed hst.1.1).resolve_left hst.1.2

/-- One row that is given up, retried and given up again. -/
theorem deliveries_counted_failRetryFail : DeliveriesCounted oneTry failRetryFail
    ((run (step oneTry) World.init failRetryFail).get failRetryFail_enabled) :=
  deliveries_counted oneTry failRetryFail _ (Option.some_get failRetryFail_enabled).symm

end

/-! ## One process -/

/-- The call of `deliver` that a worker is in. -/
def runningCalls : WorkerPhase → ℕ
  | .posting _ _ _ => 1
  | _ => 0

/-- The entries that no counter has seen: a `deliver` that has raised, a commit whose answer is
lost. -/
def uncounted {κ : Type} (log : List (κ × Option Counter)) : ℕ := (log.map Prod.snd).count none

/-- A sample without a counter is one that was not counted. -/
@[simp] theorem uncounted_cons {κ : Type} (e : κ × Option Counter)
    (log : List (κ × Option Counter)) :
    uncounted (e :: log) = uncounted log + if e.2 = none then 1 else 0 := by
  simp [uncounted, List.count_cons]

/-- Each attempt has ended in a result or by an exception, or it is running. -/
def Balanced (ph : WorkerPhase) (log : List (Uuid × Option Counter)) : Prop :=
  counterValue log .deliveriesAttempted = counterValue log .deliveriesSucceeded +
    failuresTotal log + counterValue log .deliveriesDead + uncounted log + runningCalls ph

section
variable {cfg : Settings} {s s' : World} {log : List (Uuid × Option Counter)} {w : WorkerId}

/-- The balance depends on the phase only through the call that is running. -/
theorem Balanced.of_phase {ph ph' : WorkerPhase} (h : Balanced ph log)
    (hph : runningCalls ph' = runningCalls ph) : Balanced ph' log := by
  unfold Balanced at h ⊢
  rw [h, hph]

/-- A call of `deliver` starts. -/
theorem Balanced.attempt {ph ph' : WorkerPhase} (h : Balanced ph log) (id : Uuid)
    (hph : runningCalls ph = 0) (hph' : runningCalls ph' = 1) :
    Balanced ph' ((id, some .deliveriesAttempted) :: log) := by
  unfold Balanced at h ⊢
  simp [h, hph, hph', countsFailure]

/-- A call of `deliver` ends. -/
theorem Balanced.result {ph ph' : WorkerPhase} (h : Balanced ph log) (x : DeliveryAttempt)
    (o : Option DeliveryResult) (hph : runningCalls ph = 1) (hph' : runningCalls ph' = 0) :
    Balanced ph' ((x.id, o.map (resultCounter cfg x)) :: log) := by
  unfold Balanced at h ⊢
  cases o with
  | none =>
    simp [h, hph, hph']
    omega
  | some r =>
    unfold resultCounter
    simp only [Option.map_some]
    split
    · simp [h, hph, hph', countsFailure]
      omega
    · split
      · simp [h, hph, hph', countsFailure]
        omega
      · simp [h, hph, hph', countsFailure]
        omega

/-- A worker does not await the database while it is in `deliver`. -/
theorem running_of_dbError {d d' : Delivery} {now : Time} {subscribers : List Subscriber}
    {keys : List IdempotencyKey}
    (h : worker cfg now subscribers keys d w .dbError = some d') :
    runningCalls (d.workers w).phase = 0 := by
  simp only [worker] at h
  split at h
  · cases h
  · cases h
  · rename_i hne
    unfold runningCalls
    split
    · exact absurd ‹_› (hne _ _ _)
    · rfl

/-- The increments that the process of a worker still has. -/
def recent (events : List RegistryEvent) : List (Uuid × Option Counter) :=
  (since (fun e => e.entry.isNone) events).filterMap RegistryEvent.entry

/-- After a restart nothing is recent. -/
theorem recent_restarted (events : List RegistryEvent) : recent (events ++ [.restarted]) = [] := by
  rw [recent, since_snoc_of_pos rfl, List.filterMap_nil]

/-- What is counted is the most recent. -/
theorem recent_counted (events : List RegistryEvent) (e : Uuid × Option Counter) :
    recent (events ++ [.counted e]) = e :: recent events := by
  rw [recent, since_snoc_of_neg rfl, List.filterMap_cons]
  rfl

/-- SOURCE: app/delivery/worker.py:101-147 -/
theorem Balanced.step {d d' : Delivery} {now : Time} {subscribers : List Subscriber}
    {keys : List IdempotencyKey} {b : WorkerAction} {events : List RegistryEvent}
    (h : Balanced (d.workers w).phase (recent events))
    (hs : worker cfg now subscribers keys d w b = some d') :
    Balanced (d'.workers w).phase (recent (events ++ workerEvents cfg d w b)) := by
  -- The steps that are not about a call of `deliver`.
  have hquiet : ∀ ph, runningCalls (d.workers w).phase = 0 → runningCalls ph = 0 →
      Balanced ph (recent (events ++ [])) := by
    intro ph hold hnew
    rw [List.append_nil]
    exact h.of_phase (hnew.trans hold.symm)
  cases workerStep_of_eq_some hs with
  | post hph _ =>
    simp only [workerEvents, workerSamples, hph, List.map_cons, List.map_nil, recent_counted]
    exact h.attempt _ (by rw [hph]; rfl) (by simp [runningCalls])
  | returned hph _ =>
    simp only [workerEvents, workerSamples, hph, List.map_cons, List.map_nil, recent_counted]
    exact h.result _ _ (by rw [hph]; rfl) (by simp [runningCalls])
  | escaped hph _ =>
    simp only [workerEvents, workerSamples, hph, List.map_cons, List.map_nil, recent_counted]
    exact h.result _ _ (by rw [hph]; rfl) (by simp [runningCalls])
  | crash =>
    rw [workerEvents, recent_restarted]
    simp [Balanced, counterValue, failuresTotal, uncounted, runningCalls]
  | resetStale _ => exact (List.append_nil events).symm ▸ h
  | dbError => exact hquiet _ (running_of_dbError hs) (by simp [runningCalls])
  | claim hph _ _ _ _ _ => exact hquiet _ (by rw [hph]; rfl) (by simp [runningCalls])
  | claimCommit hph => exact hquiet _ (by rw [hph]; rfl) (by simp [runningCalls])
  | fetch hph => exact hquiet _ (by rw [hph]; rfl) (by simp [runningCalls])
  | close hph _ _ => exact hquiet _ (by rw [hph]; rfl) (by simp [runningCalls])
  | writeBack hph _ _ => exact hquiet _ (by rw [hph]; rfl) (by simp [runningCalls])
  | writeBackRaised hph _ => exact hquiet _ (by rw [hph]; rfl) (by simp [runningCalls])
  | finish hph => exact hquiet _ (by rw [hph]; rfl) (by simp [runningCalls])

/-- One step keeps the balance of a worker. SOURCE: app/delivery/worker.py:101-147 -/
theorem balanced_step {events : List RegistryEvent} {a : Action}
    (h : Balanced (s.delivery.workers w).phase (recent events))
    (hs : Program.step cfg s a = some s') :
    Balanced (s'.delivery.workers w).phase (recent (events ++ registryEvents cfg w s a)) := by
  cases worldStep_of_eq_some hs with
  | @worker w' b d hstep =>
    by_cases hw : w' = w
    · subst hw
      obtain ⟨d', hd, heq⟩ := Option.map_eq_some_iff.1 hs
      cases heq
      rw [registryEvents, if_pos rfl]
      exact h.step hd
    · have hkeep : d.workers w = s.delivery.workers w := hstep.frame (Ne.symm hw)
      rw [registryEvents, if_neg hw, List.append_nil]
      exact hkeep ▸ h
  | retry hstep =>
    cases hstep <;> exact (List.append_nil events).symm ▸ h
  | _ => exact (List.append_nil events).symm ▸ h

/-- In every run, the counters of one worker process since it was started balance: the attempts
are the successes, the failures, the dead deliveries, the calls of `deliver` that have raised, and
the call that is running. SOURCE: app/delivery/worker.py:101-147, app/metrics.py:34-49 -/
theorem worker_counters_balance (cfg : Settings) (w : WorkerId) (as : List Action) (s : World)
    (h : run (step cfg) World.init as = some s) :
    counterValue (metricsOf cfg w as) .deliveriesAttempted =
      counterValue (metricsOf cfg w as) .deliveriesSucceeded + failuresTotal (metricsOf cfg w as) +
        counterValue (metricsOf cfg w as) .deliveriesDead + uncounted (metricsOf cfg w as) +
        runningCalls (s.delivery.workers w).phase := by
  have hinv : Balanced (s.delivery.workers w).phase
      (recent (history (step cfg) (registryEvents cfg w) World.init as)) := by
    refine history_induct
      (I := fun s events => Balanced (s.delivery.workers w).phase (recent events)) ?_ ?_ h
    · exact Eq.refl 0
    · intro s events a s' _ hinv hs
      exact balanced_step hinv hs
  exact hinv

end

/-- A worker dies during a POST; after its restart the stale reset frees the row, and it is posted
again. -/
def postedAgain : List Action :=
  oneAttempt ++ claimBatch 0 0 [⟨3⟩] ++
  [.worker 0 .fetch, .worker 0 .post, .worker 0 .crash, .tick (minutes 11),
    .worker 0 (.resetStale (minutes 11))] ++
  claimBatch 0 (minutes 11) [⟨3⟩] ++ [.worker 0 .fetch, .worker 0 .post]

theorem postedAgain_enabled : (run (step .default) World.init postedAgain).isSome = true := by
  decide

/-- The process has forgotten the first attempt, and the second one is running. -/
theorem worker_counters_balance_postedAgain :
    (deliverySamples .default postedAgain).length = 2 ∧
      counterValue (metricsOf .default 0 postedAgain) .deliveriesAttempted = 1 :=
  ⟨rfl, worker_counters_balance .default 0 postedAgain _
    (Option.some_get postedAgain_enabled).symm⟩

end EventPipeline.Analysis

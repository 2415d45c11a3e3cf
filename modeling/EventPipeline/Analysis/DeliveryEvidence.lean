import EventPipeline.Analysis.ClosedRows
import EventPipeline.Analysis.RecordConsistency
import EventPipeline.Analysis.SingleWorker

/-!
# What a delivery record is backed by

With several workers, stale resets and retries the counter of a row is no longer the number
of its POSTs: a worker writes the counter of its snapshot plus one, so a late write-back can
take counts away. It never adds any. The counter of a row is at most the number of POSTs that
have returned for it, a `delivered` row has had a 2xx answer, and a row is given up only
after as many answers as the settings allow, or by a worker that has found its subscriber not
to receive.
-/

set_option autoImplicit false

namespace EventPipeline.Analysis

open EventPipeline.Model EventPipeline.Program EventPipeline.Interface EventPipeline.Computation

/-- What a row owes to the outcomes of the POSTs for it and to the rows that were closed. -/
structure Backed (cfg : Settings) (closed : List DeliveryAttempt) (outcomes : List Bool)
    (row : DeliveryAttempt) : Prop where
  count : row.attemptCount ≤ outcomes.length
  delivered : row.status = .delivered → true ∈ outcomes
  dead : row.status = .dead →
    row ∈ closed ∨ (cfg.deliveryMaxAttempts ≤ row.attemptCount ∧ false ∈ outcomes)

/-- SOURCE: app/delivery/worker.py:36-174 -/
structure EvidenceInv (cfg : Settings) (s : World) (log : List (Uuid × Bool))
    (closed : List DeliveryAttempt) : Prop where
  row : ∀ row ∈ s.delivery.attempts, Backed cfg closed (outcomesOf row.id log) row
  snapshot : ∀ w, ∀ x ∈ (s.delivery.workers w).phase.batch,
    x.attempt.attemptCount ≤ (outcomesOf x.attempt.id log).length
  result : ∀ w x r at' todo, (s.delivery.workers w).phase = .posted x r at' todo →
    x.attempt.attemptCount + 1 ≤ (outcomesOf x.attempt.id log).length ∧
      r.success ∈ outcomesOf x.attempt.id log

section
variable {cfg : Settings} {s s' : World} {log log' : List (Uuid × Bool)} {a : Action}
  {closed closed' : List DeliveryAttempt}

/-- Outcomes are only added. -/
theorem outcomesOf_sublist (id : Uuid) :
    (outcomesOf id log).Sublist (outcomesOf id (log ++ log')) := by
  rw [outcomesOf_append]
  exact List.sublist_append_left _ _

/-- Further outcomes and closed rows do not take anything away. -/
theorem Backed.mono {row : DeliveryAttempt} {outcomes outcomes' : List Bool}
    (h : Backed cfg closed outcomes row) (hsub : outcomes.Sublist outcomes')
    (hclosed : closed ⊆ closed') : Backed cfg closed' outcomes' row :=
  ⟨h.count.trans hsub.length_le, fun hd => hsub.subset (h.delivered hd),
    fun hd => (h.dead hd).imp (fun hmem => hclosed hmem) fun ⟨hM, hmem⟩ => ⟨hM, hsub.subset hmem⟩⟩

/-- A row that is not finished owes only its counter. -/
theorem backed_of_open {row : DeliveryAttempt} {outcomes : List Bool}
    (hcount : row.attemptCount ≤ outcomes.length)
    (h : row.status = .pending ∨ row.status = .failed ∨ row.status = .inFlight) :
    Backed cfg closed outcomes row := by
  refine ⟨hcount, fun hd => ?_, fun hd => ?_⟩
  · simp [hd] at h
  · simp [hd] at h

/-- The final update of a result that is among the outcomes.
SOURCE: app/delivery/worker.py:126-172 -/
theorem backed_apply {x row : DeliveryAttempt} {r : DeliveryResult} {now : Time} {k : Draw}
    {u : FinalUpdate} {outcomes : List Bool} (hcount : x.attemptCount + 1 ≤ outcomes.length)
    (hr : r.success ∈ outcomes) (h : finalUpdate cfg x r now k = some u) :
    Backed cfg closed outcomes (u.apply x r now row) := by
  unfold finalUpdate at h
  by_cases hs : r.success = true
  · rw [if_pos hs] at h
    cases h
    exact ⟨hcount, fun _ => hs ▸ hr, nofun⟩
  · rw [if_neg hs] at h
    split at h
    · rename_i hM
      cases h
      exact ⟨hcount, nofun, fun _ => Or.inr ⟨hM, (Bool.not_eq_true _ ▸ hs) ▸ hr⟩⟩
    · obtain ⟨delay, _, rfl⟩ := Option.map_eq_some_iff.1 h
      exact ⟨hcount, nofun, nofun⟩

/-- Each writer leaves a row that is backed. SOURCE: app/delivery/worker.py:36-174,
app/api/deliveries.py:65-69 -/
theorem Backed.step {row row' : DeliveryAttempt} (hreach : Reachable (Program.step cfg) World.init s)
    (hinv : EvidenceInv cfg s log closed) (hrow : row ∈ s.delivery.attempts)
    (h : AttemptStep cfg s a row row') :
    Backed cfg (closed ++ closedRows (rowCheck s a)) (outcomesOf row.id log) row' := by
  have hbacked := (hinv.row row hrow).mono (List.Sublist.refl _)
    (List.subset_append_left closed (closedRows (rowCheck s a)))
  cases h with
  | same => exact hbacked
  | mark _ _ => exact backed_of_open hbacked.count (Or.inr (Or.inr rfl))
  | close hph _ hid =>
    have hmem := mem_closedRows_of_close hreach hrow hph hid
    exact ⟨hbacked.count, nofun, fun _ => Or.inl (List.mem_append_right _ hmem)⟩
  | writeBack hph _ hid hu =>
    obtain ⟨hcount, hr⟩ := hinv.result _ _ _ _ _ hph
    rw [hid]
    exact backed_apply hcount hr hu
  | reset _ => exact backed_of_open hbacked.count (Or.inr (Or.inl rfl))
  | retry hr _ _ =>
    exact backed_of_open hbacked.count
      (Or.inl (status_retryRow ((recordInv_of_reachable hreach).loaded _ _ hr)))

/-- A result that waits for its write-back is the last one that has returned for its row.
SOURCE: app/delivery/worker.py:123-127 -/
theorem result_logged (hinv : EvidenceInv cfg s log closed) (hs : Program.step cfg s a = some s')
    {w : WorkerId} {x : Snapshot} {r : DeliveryResult} {at' : Time} {todo : List Snapshot}
    (hph : (s'.delivery.workers w).phase = .posted x r at' todo) :
    x.attempt.attemptCount + 1 ≤
        (outcomesOf x.attempt.id (log ++ returnedPost s.delivery a)).length ∧
      r.success ∈ outcomesOf x.attempt.id (log ++ returnedPost s.delivery a) := by
  have hold : (s.delivery.workers w).phase = .posted x r at' todo →
      x.attempt.attemptCount + 1 ≤
          (outcomesOf x.attempt.id (log ++ returnedPost s.delivery a)).length ∧
        r.success ∈ outcomesOf x.attempt.id (log ++ returnedPost s.delivery a) := by
    intro hph
    obtain ⟨hcount, hr⟩ := hinv.result w x r at' todo hph
    have hsub : (outcomesOf x.attempt.id log).Sublist
        (outcomesOf x.attempt.id (log ++ returnedPost s.delivery a)) := outcomesOf_sublist _
    exact ⟨hcount.trans hsub.length_le, hsub.subset hr⟩
  obtain hkeep | ⟨b, d, rfl, rfl, h⟩ := worker_of_step hs w
  · exact hold (hkeep ▸ hph)
  · cases h with
    | returned hposting hr =>
      simp only [Delivery.setPhase_eq, Delivery.setWorker_workers, Function.update_self] at hph
      cases hph
      have hcount := hinv.snapshot w x (by rw [hposting]; exact List.mem_cons_self)
      simp only [returnedPost, hposting, hr, outcomesOf_append, outcomesOf_singleton_self,
        List.length_append, List.length_singleton, List.mem_append, List.mem_singleton]
      exact ⟨by omega, Or.inr trivial⟩
    | resetStale _ => exact hold hph
    | _ =>
      simp only [Delivery.setPhase_eq, Delivery.setWorker_workers, Function.update_self] at hph
      cases hph

/-- SOURCE: app/delivery/worker.py:36-174 -/
theorem evidenceInv_step (hreach : Reachable (Program.step cfg) World.init s)
    (hinv : EvidenceInv cfg s log closed) (hs : Program.step cfg s a = some s') :
    EvidenceInv cfg s' (log ++ returnedPost s.delivery a)
      (closed ++ closedRows (rowCheck s a)) := by
  refine ⟨fun row' hrow' => ?_, fun w x hx => ?_, fun w x r at' todo hph =>
    result_logged hinv hs hph⟩
  · obtain ⟨row, hrow, hstep⟩ | ⟨hnew, _⟩ := (attemptsStep_of_step hs).of_mem hrow'
    · rw [hstep.identity.1]
      exact (Backed.step hreach hinv hrow hstep).mono (outcomesOf_sublist _) (List.Subset.refl _)
    · exact backed_of_open (hnew.attemptCount.trans_le (Nat.zero_le _)) (Or.inl hnew.status)
  · have hcount : x.attempt.attemptCount ≤ (outcomesOf x.attempt.id log).length := by
      obtain hx | ⟨_, _, _, _, _, hsnap, _⟩ := batch_of_step hs hx
      · exact hinv.snapshot w x hx
      · exact (hinv.row _ (of_snapshotOf hsnap).1).count
    exact hcount.trans (outcomesOf_sublist _).length_le

/-- Every run leaves rows that are backed by its own history. -/
theorem evidenceInv_of_run {as : List Action} (h : run (Program.step cfg) World.init as = some s) :
    EvidenceInv cfg s (returnedPosts cfg as) (closedRows (rowChecks cfg as)) := by
  refine run_induct (I := fun as s =>
    EvidenceInv cfg s (returnedPosts cfg as) (closedRows (rowChecks cfg as))) ?_ ?_ h
  · refine ⟨fun _ h => absurd h List.not_mem_nil, fun _ _ h => absurd h List.not_mem_nil, ?_⟩
    intro w x r at' todo hph
    cases hph
  · intro as s a s' hrun hinv hs
    rw [returnedPosts, rowChecks, history_snoc hrun, history_snoc hrun, closedRows_append]
    exact evidenceInv_step ⟨as, hrun⟩ hinv hs

/-- Under every schedule the counter of a row is at most the number of POSTs that have returned
for it, a `delivered` row has had a 2xx answer, and a `dead` row was closed by a worker whose last
re-fetch has found its subscriber not to receive, or as many POSTs as the maximum have returned
for it and one of them was no success.
SOURCE: app/delivery/worker.py:36-174, app/delivery/sender.py:65-90, app/api/deliveries.py:50-71 -/
theorem records_backed_by_posts (cfg : Settings) (as : List Action) (s : World)
    (h : run (step cfg) World.init as = some s) :
    ∀ row ∈ s.delivery.attempts,
      row.attemptCount ≤ (outcomesOf row.id (returnedPosts cfg as)).length ∧
      (row.status = .delivered → true ∈ outcomesOf row.id (returnedPosts cfg as)) ∧
      (row.status = .dead → ClosedInactive (rowChecks cfg as) row ∨
        (cfg.deliveryMaxAttempts ≤ (outcomesOf row.id (returnedPosts cfg as)).length ∧
          false ∈ outcomesOf row.id (returnedPosts cfg as))) := by
  intro row hrow
  obtain ⟨hcount, hdelivered, hdead⟩ := (evidenceInv_of_run h).row row hrow
  exact ⟨hcount, hdelivered, fun hd => (hdead hd).imp ((checkInv_of_run h).closed row)
    fun ⟨hM, hmem⟩ => ⟨hM.trans hcount, hmem⟩⟩

/-- The bound is reached: the row is given up after its only attempt, retried, and given up
again. -/
theorem records_backed_by_posts_failRetryFail :
    ∃ row ∈ ((run (step oneTry) World.init failRetryFail).get failRetryFail_enabled).delivery.attempts,
      row.status = .dead ∧ row.attemptCount = 2 ∧
        2 ≤ (outcomesOf row.id (returnedPosts oneTry failRetryFail)).length :=
  ⟨_, List.Mem.head _, rfl, rfl, (records_backed_by_posts oneTry failRetryFail _
    (Option.some_get failRetryFail_enabled).symm _ (List.Mem.head _)).1⟩

end

end EventPipeline.Analysis

import EventPipeline.Analysis.DeliveryCompletion
import EventPipeline.Analysis.DeliveryEvidence
import EventPipeline.Analysis.DeliveryReads

/-!
# Every recipient is served

From the message to its receivers. What has been ACKed is recorded, what is recorded has one
delivery for each of its recipients, and workers that have nothing left to do have brought each
of them to its end, of which the POSTs of the whole run are the evidence.
-/

set_option autoImplicit false

namespace EventPipeline.Analysis

open EventPipeline.Model EventPipeline.Program EventPipeline.Interface EventPipeline.Computation

/-- The delivery has ended in the run, with a 2xx answer, or it was given up: a worker has fetched
its subscriber, found that it does not receive and closed the row, or as many POSTs as the maximum
have returned for it, one of them a failure. SOURCE: app/delivery/worker.py:101-174 -/
def Concluded (cfg : Settings) (as : List Action) (row : DeliveryAttempt) : Prop :=
  let outcomes := outcomesOf row.id (returnedPosts cfg as)
  row.status = .delivered ∧ true ∈ outcomes ∨
    row.status = .dead ∧
      (ClosedInactive (rowChecks cfg as) row ∨
        cfg.deliveryMaxAttempts ≤ outcomes.length ∧ false ∈ outcomes)

/-- The event was accepted with the subscribers `seen`, and has one delivery for each of them that
receives, all of them concluded in the run. -/
structure ServedFor (cfg : Settings) (as : List Action) (s : World) (m : MessageId)
    (seen : List Subscriber) : Prop where
  accepted : ⟨m, seen⟩ ∈ s.intake.ledger
  recipients : ((rowsOf m s.delivery.attempts).map DeliveryAttempt.subscriberId).Perm
    (recipients seen)
  concluded : ∀ row ∈ rowsOf m s.delivery.attempts, Concluded cfg as row

section
variable {cfg : Settings} {s s' : World}

/-- A row that is finished has its evidence. -/
theorem concluded_of_run {as : List Action} (h : run (step cfg) World.init as = some s)
    {row : DeliveryAttempt} (hrow : row ∈ s.delivery.attempts)
    (hfinished : row.status = .delivered ∨ row.status = .dead) : Concluded cfg as row := by
  have hbacked := (evidenceInv_of_run h).row row hrow
  obtain hst | hst := hfinished
  · exact Or.inl ⟨hst, hbacked.delivered hst⟩
  · exact Or.inr ⟨hst, (hbacked.dead hst).imp ((checkInv_of_run h).closed row)
      fun ⟨hM, hmem⟩ => ⟨hM.trans hbacked.count, hmem⟩⟩

/-- A recorded event has been accepted with some subscribers. -/
theorem exists_accepted (h : Reachable (step cfg) World.init s) {m : MessageId}
    (hm : m ∈ s.intake.ids) : ∃ seen, ⟨m, seen⟩ ∈ s.intake.ledger := by
  have hm' : m ∈ s.intake.ledger.map Acceptance.messageId :=
    (intakeInv_of_reachable h).ledger_ids ▸ hm
  obtain ⟨⟨m', seen⟩, hmem, rfl⟩ := List.mem_map.1 hm'
  exact ⟨seen, hmem⟩

/-- A recorded event whose rows are all finished is served. -/
theorem exists_servedFor {as : List Action} (h : run (step cfg) World.init as = some s)
    (hfinished : ∀ row ∈ s.delivery.attempts, row.status = .delivered ∨ row.status = .dead)
    {m : MessageId} (hm : m ∈ s.intake.ids) : ∃ seen, ServedFor cfg as s m seen := by
  obtain ⟨seen, hmem⟩ := exists_accepted ⟨as, h⟩ hm
  refine ⟨seen, hmem, subscriberIds_perm ⟨as, h⟩ (List.mem_map_of_mem hmem), fun row hrow => ?_⟩
  have hrow := (List.mem_filter.1 hrow).1
  exact concluded_of_run h hrow (hfinished row hrow)

/-- What has been ACKed is recorded, and what is recorded is served. -/
structure RecipientsServed (cfg : Settings) (as : List Action) (s : World) : Prop where
  recorded : ∀ t c m, s.intake.copies t = some c → Names cfg c.body m → c.state = .acked →
    m ∈ s.intake.ids
  served : ∀ m ∈ s.intake.ids, ∃ seen, ServedFor cfg as s m seen

end

/-! ## The same history -/

/-- The two workers have finished their batches, and the others have not started. -/
theorem afterService_idle (w : WorkerId) : (afterService.delivery.workers w).phase = .idle := by
  by_cases hw : (w : ℕ) < 2
  · have hboth : ∀ w < 2, (afterService.delivery.workers w).phase = .idle := by decide +kernel
    exact hboth w hw
  · have hnone : ∀ b, Action.worker w b ∉ twoWorkersServe := by
      intro b
      have h0 : w ≠ 0 := fun h => hw (h ▸ Nat.two_pos)
      have h1 : w ≠ 1 := fun h => hw (h ▸ Nat.one_lt_two)
      simp [twoWorkersServe, claimBatch, deliverNext, h0, h1]
    have hkeep := worker_of_run (Option.some_get twoWorkersServe_enabled).symm hnone
    have hreset := (delivery_of_reset (Option.some_get resetAfterCrash_enabled).symm).2
    rw [afterService, hkeep, afterReset, hreset]
    exact crashed_idle w

/-- The delivery has been answered with 200. -/
theorem afterService_finished : ∀ row ∈ afterService.delivery.attempts,
    row.status = .delivered ∨ row.status = .dead := by decide +kernel

end EventPipeline.Analysis

import EventPipeline.Computation.Transition
import EventPipeline.Program.Batch

/-!
# The batch as a run of the step function

`deliverAttempt` and `processBatch` compute what the steps of a worker do that no other
process interferes with: one row, the loop over the rows, and the claim in front of it.
-/

set_option autoImplicit false

namespace EventPipeline.Interface

open EventPipeline.Model EventPipeline.Program EventPipeline.Computation

def batchIds (batch : List (Snapshot × RowEnv)) : List Uuid := batch.map fun p => p.1.attempt.id

/-- The rows of a batch are different rows of the table, as its SELECT has returned them.
SOURCE: app/delivery/worker.py:63-75 -/
structure Claimed (t₀ : Time) (batch : List (Snapshot × RowEnv)) (t : List DeliveryAttempt) :
    Prop where
  ids_nodup : (t.map DeliveryAttempt.id).Nodup
  batch_nodup : (batchIds batch).Nodup
  rows : ∀ p ∈ batch, p.1.attempt ∈ t ∧ claimable t₀ p.1.attempt = true

section
variable {cfg : Settings}

/-- A row that raises ends the loop. SOURCE: app/delivery/worker.py:94-96 -/
theorem deliverBatch_cons_of_none {a : Snapshot} {e : RowEnv} {rest : List (Snapshot × RowEnv)}
    {t : List DeliveryAttempt} (h : deliverAttempt cfg a e t = none) :
    deliverBatch cfg ((a, e) :: rest) t = (t, true) := by
  rw [deliverBatch, h]

/-- The loop goes on after a row that was recorded. SOURCE: app/delivery/worker.py:94-96 -/
theorem deliverBatch_cons_of_some {a : Snapshot} {e : RowEnv} {rest : List (Snapshot × RowEnv)}
    {t t' : List DeliveryAttempt} (h : deliverAttempt cfg a e t = some t') :
    deliverBatch cfg ((a, e) :: rest) t = deliverBatch cfg rest t' := by
  rw [deliverBatch, h]

/-- Worker `w` alone, with the time and the subscribers that each step finds. -/
def aloneStep (cfg : Settings) (keys : List IdempotencyKey) (w : WorkerId) (d : Delivery)
    (x : Time × List Subscriber × WorkerAction) : Option Delivery :=
  worker cfg x.1 x.2.1 keys d w x.2.2

def rowActions (e : RowEnv) : List (Time × List Subscriber × WorkerAction) :=
  (e.at', e.sub.toList, .fetch) ::
    if e.sub.any Subscriber.receives then
      (e.at', [], .post) :: (e.at', [], .postEnds e.outcome) ::
        if (deliver e.outcome).isSome then [(e.at', [], .writeBack e.draw)] else []
    else [(e.at', [], .close)]

/-- What the worker has done with its next row. -/
def RowDone (cfg : Settings) (w : WorkerId) (a : Snapshot) (e : RowEnv) (todo : List Snapshot)
    (d d' : Delivery) : Prop :=
  d'.rowLocks = d.rowLocks ∧
    match deliverAttempt cfg a e d.attempts with
    | some t => d'.attempts = t ∧ (d'.workers w).phase = .delivering todo
    | none => d'.attempts = d.attempts ∧ (d'.workers w).phase = .idle

/-- `session.get` finds the subscriber of the row, or nothing. -/
def Fits (a : Snapshot) (e : RowEnv) : Prop := ∀ sub ∈ e.sub, sub.id = a.attempt.subscriberId

/-- The re-fetch finds the subscriber that the environment of the row names. -/
theorem lookup_of_fits {a : Snapshot} {e : RowEnv} (h : Fits a e) :
    lookup Subscriber.id a.attempt.subscriberId e.sub.toList = e.sub := by
  cases hs : e.sub with
  | none => rfl
  | some sub =>
    have hid : sub.id = a.attempt.subscriberId := h sub hs
    simp [lookup, hid]

/-- One row: the steps of the worker do what `deliverAttempt` computes. -/
theorem run_rowActions {keys : List IdempotencyKey} {w : WorkerId} {d : Delivery} {a : Snapshot}
    {e : RowEnv} {todo : List Snapshot} (hph : (d.workers w).phase = .delivering (a :: todo))
    (hlocks : d.rowLocks = []) (hfits : Fits a e) :
    ∃ d', run (aloneStep cfg keys w) d (rowActions e) = some d' ∧ RowDone cfg w a e todo d d' ∧
      d'.posts = d.posts ++ attemptPosts a e := by
  have hlook := lookup_of_fits hfits
  obtain ⟨sub, outcome, at', k⟩ := e
  dsimp only at hlook
  unfold RowDone deliverAttempt rowActions attemptPosts
  by_cases hsub : sub.any Subscriber.receives = true
  · obtain ⟨sub, rfl, hrec⟩ := (Option.any_eq_true _ _).1 hsub
    rw [Option.toList_some] at hlook
    cases hd : deliver outcome with
    | none => simp [run, aloneStep, worker, hph, hlook, hrec, hd]
    | some r =>
      cases hw : writeBack cfg a.attempt r at' k d.attempts with
      | none =>
        simp [run, aloneStep, worker, hph, hlook, hrec, hd, hw, Delivery.locked, hlocks]
      | some t =>
        simp [run, aloneStep, worker, hph, hlook, hrec, hd, hw, Delivery.locked, hlocks,
          Delivery.release]
  · have hposts : attemptPosts a ⟨sub, outcome, at', k⟩ = [] := by
      unfold attemptPosts
      cases sub with
      | none => rfl
      | some sub => exact if_neg hsub
    unfold attemptPosts at hposts
    simp [run, aloneStep, worker, hph, hlook, hsub, Delivery.locked, hlocks, Delivery.release,
      hposts]

/-- The loop over the batch, as steps of the worker. -/
theorem run_deliverBatch {keys : List IdempotencyKey} {w : WorkerId} {d : Delivery}
    {batch : List (Snapshot × RowEnv)}
    (hph : (d.workers w).phase = .delivering (batch.map Prod.fst)) (hlocks : d.rowLocks = [])
    (hfits : ∀ p ∈ batch, Fits p.1 p.2) :
    ∃ actions d', run (aloneStep cfg keys w) d actions = some d' ∧ d'.rowLocks = [] ∧
      d'.attempts = (deliverBatch cfg batch d.attempts).1 ∧
      d'.posts = d.posts ++ batchPosts cfg batch d.attempts ∧
      (d'.workers w).phase =
        if (deliverBatch cfg batch d.attempts).2 then .idle else .delivering [] := by
  induction batch generalizing d with
  | nil => exact ⟨[], d, rfl, hlocks, rfl, (List.append_nil _).symm, hph⟩
  | cons p rest ih =>
    obtain ⟨a, e⟩ := p
    obtain ⟨d₁, hrun, ⟨hlocks₁, hdone⟩, hposts₁⟩ : ∃ d₁,
        run (aloneStep cfg keys w) d (rowActions e) = some d₁ ∧
        RowDone cfg w a e (rest.map Prod.fst) d d₁ ∧ d₁.posts = d.posts ++ attemptPosts a e :=
      run_rowActions hph hlocks (hfits (a, e) List.mem_cons_self)
    rw [batchPosts]
    cases hd : deliverAttempt cfg a e d.attempts with
    | none =>
      rw [hd] at hdone
      rw [deliverBatch_cons_of_none hd]
      refine ⟨rowActions e, d₁, hrun, hlocks₁.trans hlocks, hdone.1, ?_, hdone.2⟩
      rw [hposts₁, List.append_nil]
    | some t =>
      rw [hd] at hdone
      rw [deliverBatch_cons_of_some hd]
      obtain ⟨hattempts, hph₁⟩ := hdone
      obtain ⟨actions, d', hrest, hlocks', hloop, hposts', hph'⟩ := ih hph₁ (hlocks₁.trans hlocks)
        fun q hq => hfits q (List.mem_cons_of_mem _ hq)
      rw [hattempts] at hloop hposts' hph'
      refine ⟨rowActions e ++ actions, d', run_append_eq_some.2 ⟨d₁, hrun, hrest⟩, hlocks', hloop,
        ?_, hph'⟩
      rw [hposts', hposts₁, List.append_assoc]

/-- The claim of the batch and its commit. SOURCE: app/delivery/worker.py:63-89 -/
theorem run_claim (cfg : Settings) {keys : List IdempotencyKey} {w : WorkerId} {d : Delivery}
    {t₀ : Time} {batch : List (Snapshot × RowEnv)} (hph : (d.workers w).phase = .idle)
    (hlocks : d.rowLocks = []) (hn : (batchIds batch).Nodup)
    (hclaimable : ∀ p ∈ batch, claimable t₀ p.1.attempt = true) (hne : batch ≠ [])
    (hsize : batch.length ≤ cfg.deliveryBatchSize)
    (hloaded : ∀ p ∈ batch, snapshotOf d.attempts keys p.1.attempt.id = some p.1) :
    ∃ d', run (aloneStep cfg keys w) d
        [(t₀, [], .claim t₀ (batchIds batch)), (t₀, [], .claimCommit)] = some d' ∧
      d'.attempts = markInFlight (batchIds batch) t₀ d.attempts ∧ d'.posts = d.posts ∧
      d'.rowLocks = [] ∧ (d'.workers w).phase = .delivering (batch.map Prod.fst) := by
  have hpicked : (batchIds batch).filterMap (snapshotOf d.attempts keys) = batch.map Prod.fst := by
    rw [batchIds, List.filterMap_map, ← List.filterMap_eq_map]
    exact List.filterMap_congr hloaded
  have hguard : t₀ ≤ t₀ ∧ batchIds batch ≠ [] ∧ (batchIds batch).Nodup ∧
      (batchIds batch).length ≤ cfg.deliveryBatchSize ∧ ∀ id ∈ batchIds batch, id ∉ d.locked ∧
        (snapshotOf d.attempts keys id).any (fun a => claimable t₀ a.attempt) = true := by
    refine ⟨le_rfl, by simpa [batchIds] using hne, hn, by simpa [batchIds] using hsize,
      fun id hid => ?_⟩
    obtain ⟨p, hp, rfl⟩ := List.mem_map.1 hid
    rw [hloaded p hp, Delivery.locked, hlocks]
    exact ⟨List.not_mem_nil, hclaimable p hp⟩
  have hstep : aloneStep cfg keys w d (t₀, [], .claim t₀ (batchIds batch)) =
      some ({ d with rowLocks := (batchIds batch).map fun id => (w, id) }.setPhase w
        (.claiming t₀ (batch.map Prod.fst))) := by
    simp only [aloneStep, worker, hph]
    rw [if_pos hguard, hpicked, hlocks, List.nil_append]
  rw [run, hstep, Option.bind_some, run_singleton]
  simp [aloneStep, worker, Delivery.unlock, batchIds, Function.comp_def]
  intro w' _ _ _ _ h _
  exact h.symm

/-- `_process_batch` of a worker that no other process interferes with: its steps leave the
table that `processBatch` computes, make the requests of `batchPosts`, and end. -/
theorem run_processBatch {keys : List IdempotencyKey} {w : WorkerId} {d : Delivery} {t₀ : Time}
    {batch : List (Snapshot × RowEnv)} (hph : (d.workers w).phase = .idle)
    (hlocks : d.rowLocks = []) (hn : (batchIds batch).Nodup)
    (hclaimable : ∀ p ∈ batch, claimable t₀ p.1.attempt = true) (hne : batch ≠ [])
    (hsize : batch.length ≤ cfg.deliveryBatchSize)
    (hloaded : ∀ p ∈ batch, snapshotOf d.attempts keys p.1.attempt.id = some p.1)
    (hfits : ∀ p ∈ batch, Fits p.1 p.2) :
    ∃ actions d', run (aloneStep cfg keys w) d actions = some d' ∧ d'.rowLocks = [] ∧
      (d'.workers w).phase = .idle ∧ d'.attempts = (processBatch cfg t₀ batch d.attempts).1 ∧
      d'.posts = d.posts ++
        batchPosts cfg batch (markInFlight (batchIds batch) t₀ d.attempts) := by
  obtain ⟨d₁, hclaim, hattempts, hposts₁, hlocks₁, hph₁⟩ :=
    run_claim cfg hph hlocks hn hclaimable hne hsize hloaded
  obtain ⟨actions, d', hrun, hlocks', hloop, hposts', hph'⟩ : ∃ actions d',
      run (aloneStep cfg keys w) d₁ actions = some d' ∧ d'.rowLocks = [] ∧
      d'.attempts = (deliverBatch cfg batch d₁.attempts).1 ∧
      d'.posts = d₁.posts ++ batchPosts cfg batch d₁.attempts ∧ _ :=
    run_deliverBatch hph₁ hlocks₁ hfits
  have hall := run_append_eq_some.2 ⟨d₁, hclaim, hrun⟩
  rw [hattempts] at hloop hposts' hph'
  rw [hposts₁] at hposts'
  -- Without an exception the loop has returned, and the call still has to.
  cases hexc : (deliverBatch cfg batch (markInFlight (batchIds batch) t₀ d.attempts)).2 with
  | true =>
    rw [hexc, if_pos rfl] at hph'
    exact ⟨_, d', hall, hlocks', hph', hloop, hposts'⟩
  | false =>
    rw [hexc, if_neg Bool.false_ne_true] at hph'
    have hfinish : aloneStep cfg keys w d' (t₀, [], .finish) = some (d'.setPhase w .idle) := by
      simp only [aloneStep, worker, hph']
    refine ⟨_ ++ [(t₀, [], .finish)], d'.setPhase w .idle, run_append_eq_some.2 ⟨d', hall, ?_⟩,
      hlocks', by simp, hloop, hposts'⟩
    rw [run_singleton, hfinish]

end

end EventPipeline.Interface

import EventPipeline.Program.Worker
import EventPipeline.Program.Api

/-!
# What a step of the delivery side can do

`WorkerStep` and `RetryStep` list the enabled steps of `worker` and `retryDelivery`, one
constructor for each way through the source, guards included. The invariants of the delivery
side are proved by cases on these relations and never unfold the step functions.
-/

set_option autoImplicit false

namespace EventPipeline.Interface

open EventPipeline.Model EventPipeline.Program EventPipeline.Computation

/-- The enabled steps of a worker process. -/
inductive WorkerStep (cfg : Settings) (now : Time) (subscribers : List Subscriber)
    (keys : List IdempotencyKey) (d : Delivery) (w : WorkerId) : WorkerAction → Delivery → Prop
  | claim {t₀ : Time} {picks : List Uuid} (hph : (d.workers w).phase = .idle) (ht : t₀ ≤ now)
      (hne : picks ≠ []) (hn : picks.Nodup) (hl : picks.length ≤ cfg.deliveryBatchSize)
      (hp : ∀ id ∈ picks, id ∉ d.locked ∧
        ∃ a, snapshotOf d.attempts keys id = some a ∧ claimable t₀ a.attempt = true) :
      WorkerStep cfg now subscribers keys d w (.claim t₀ picks)
        (({ d with rowLocks := d.rowLocks ++ picks.map fun id => (w, id) } : Delivery).setPhase w
          (.claiming t₀ (picks.filterMap (snapshotOf d.attempts keys))))
  | claimCommit {t₀ : Time} {picked : List Snapshot}
      (hph : (d.workers w).phase = .claiming t₀ picked) :
      WorkerStep cfg now subscribers keys d w .claimCommit
        (({ d.unlock w with
            attempts := markInFlight (picked.map fun a => a.attempt.id) t₀ d.attempts } :
          Delivery).setWorker w
          ⟨.delivering picked, (d.workers w).held ++ picked.map fun a => a.attempt.id⟩)
  | fetch {a : Snapshot} {todo : List Snapshot}
      (hph : (d.workers w).phase = .delivering (a :: todo)) :
      WorkerStep cfg now subscribers keys d w .fetch
        (d.setPhase w
          (.fetched a (lookup Subscriber.id a.attempt.subscriberId subscribers) todo))
  | close {a : Snapshot} {sub : Option Subscriber} {todo : List Snapshot}
      (hph : (d.workers w).phase = .fetched a sub todo) (hs : sub.any Subscriber.receives = false)
      (hl : a.attempt.id ∉ d.locked) :
      WorkerStep cfg now subscribers keys d w .close
        (({ d with attempts := closeInactive a.attempt now d.attempts } : Delivery).setWorker w
          ⟨.delivering todo, (d.workers w).held.filter fun i => i ≠ a.attempt.id⟩)
  | post {a : Snapshot} {sub : Subscriber} {todo : List Snapshot}
      (hph : (d.workers w).phase = .fetched a (some sub) todo) (hs : sub.receives = true) :
      WorkerStep cfg now subscribers keys d w .post
        (({ d with posts := d.posts ++ [postOf a sub] } : Delivery).setPhase w
          (.posting a sub todo))
  | returned {a : Snapshot} {sub : Subscriber} {todo : List Snapshot} {o : PostOutcome}
      {r : DeliveryResult} (hph : (d.workers w).phase = .posting a sub todo)
      (hr : deliver o = some r) :
      WorkerStep cfg now subscribers keys d w (.postEnds o)
        (d.setPhase w (.posted a r now todo))
  | escaped {a : Snapshot} {sub : Subscriber} {todo : List Snapshot} {o : PostOutcome}
      (hph : (d.workers w).phase = .posting a sub todo) (hr : deliver o = none) :
      WorkerStep cfg now subscribers keys d w (.postEnds o) (d.setPhase w .idle)
  | writeBack {a : Snapshot} {r : DeliveryResult} {at' : Time} {k : Draw} {todo : List Snapshot}
      {attempts : List DeliveryAttempt} (hph : (d.workers w).phase = .posted a r at' todo)
      (hl : a.attempt.id ∉ d.locked)
      (hw : Program.writeBack cfg a.attempt r at' k d.attempts = some attempts) :
      WorkerStep cfg now subscribers keys d w (.writeBack k)
        (({ d with attempts := attempts } : Delivery).setWorker w
          ⟨.delivering todo, (d.workers w).held.filter fun i => i ≠ a.attempt.id⟩)
  | writeBackRaised {a : Snapshot} {r : DeliveryResult} {at' : Time} {k : Draw} {todo : List Snapshot}
      (hph : (d.workers w).phase = .posted a r at' todo)
      (hw : Program.writeBack cfg a.attempt r at' k d.attempts = none) :
      WorkerStep cfg now subscribers keys d w (.writeBack k) (d.setPhase w .idle)
  | finish (hph : (d.workers w).phase = .delivering []) :
      WorkerStep cfg now subscribers keys d w .finish (d.setPhase w .idle)
  | dbError :
      WorkerStep cfg now subscribers keys d w .dbError ((d.unlock w).setPhase w .idle)
  | resetStale {t₀ : Time} (ht : t₀ ≤ now) :
      WorkerStep cfg now subscribers keys d w (.resetStale t₀)
        { d with attempts := resetStaleInFlight cfg t₀ d.attempts }
  | crash :
      WorkerStep cfg now subscribers keys d w .crash ((d.unlock w).setWorker w ⟨.idle, []⟩)

/-- The list of worker steps is complete. -/
theorem workerStep_of_eq_some {cfg : Settings} {now : Time} {subscribers : List Subscriber}
    {keys : List IdempotencyKey} {d d' : Delivery} {w : WorkerId} {a : WorkerAction}
    (h : worker cfg now subscribers keys d w a = some d') :
    WorkerStep cfg now subscribers keys d w a d' := by
  cases a with
  | claim t₀ picks =>
    simp only [worker] at h
    split at h
    · rename_i hph
      split at h
      · rename_i hg
        cases h
        refine .claim hph hg.1 hg.2.1 hg.2.2.1 hg.2.2.2.1 fun id hid => ?_
        obtain ⟨hlock, hany⟩ := hg.2.2.2.2 id hid
        refine ⟨hlock, ?_⟩
        cases hs : snapshotOf d.attempts keys id with
        | none => simp [hs] at hany
        | some a => exact ⟨a, rfl, by simpa [hs] using hany⟩
      · cases h
    · cases h
  | claimCommit =>
    simp only [worker] at h
    split at h
    · cases h
      exact .claimCommit ‹_›
    · cases h
  | fetch =>
    simp only [worker] at h
    split at h <;> cases h
    exact .fetch ‹_›
  | close =>
    simp only [worker] at h
    split at h
    · split at h
      · cases h
      · rename_i hph hg
        cases h
        simp only [Bool.or_eq_true, decide_eq_true_eq, not_or, Bool.not_eq_true] at hg
        rw [Delivery.setPhase_release]
        exact .close hph hg.1 hg.2
    · cases h
  | post =>
    simp only [worker] at h
    split at h
    · split at h
      · cases h
        exact .post ‹_› ‹_›
      · cases h
    · cases h
  | postEnds o =>
    simp only [worker] at h
    split at h
    · split at h <;> cases h
      · exact .returned ‹_› ‹_›
      · exact .escaped ‹_› ‹_›
    · cases h
  | writeBack k =>
    simp only [worker] at h
    split at h
    · split at h
      · cases h
      · split at h <;> cases h
        · rw [Delivery.setPhase_release]
          exact .writeBack ‹_› ‹_› ‹_›
        · exact .writeBackRaised ‹_› ‹_›
    · cases h
  | finish =>
    simp only [worker] at h
    split at h <;> cases h
    exact .finish ‹_›
  | dbError =>
    simp only [worker] at h
    split at h <;> cases h
    exact .dbError
  | resetStale t₀ =>
    simp only [worker] at h
    split at h <;> cases h
    exact .resetStale ‹_›
  | crash =>
    cases h
    exact .crash

/-! ## The batches -/

section
variable {cfg : Settings} {now : Time} {subscribers : List Subscriber}
  {keys : List IdempotencyKey} {d d' : Delivery} {w : WorkerId} {a : WorkerAction}

/-- A step of worker `w` leaves the other workers alone. -/
theorem WorkerStep.frame (h : WorkerStep cfg now subscribers keys d w a d') {w' : WorkerId}
    (hw : w' ≠ w) : d'.workers w' = d.workers w' := by
  cases h <;> simp [hw]

/-- A row gets into the batch of a worker by its claim. SOURCE: app/delivery/worker.py:63-98 -/
theorem WorkerStep.batch (h : WorkerStep cfg now subscribers keys d w a d') {x : Snapshot}
    (hx : x ∈ (d'.workers w).phase.batch) :
    x ∈ (d.workers w).phase.batch ∨
      ∃ t₀ picks id, a = .claim t₀ picks ∧ id ∈ picks ∧ snapshotOf d.attempts keys id = some x ∧
        claimable t₀ x.attempt = true := by
  cases h with
  | claim hph ht hne hn hl hp =>
    simp only [Delivery.setPhase_eq, Delivery.setWorker_workers, Function.update_self,
      WorkerPhase.batch, List.mem_filterMap] at hx
    obtain ⟨id, hid, hx⟩ := hx
    obtain ⟨_, y, hy, hc⟩ := hp id hid
    rw [hx] at hy
    cases hy
    exact Or.inr ⟨_, _, id, rfl, hid, hx, hc⟩
  | claimCommit hph =>
    simp only [Delivery.setWorker_workers, Function.update_self] at hx
    exact Or.inl (by rw [hph]; exact hx)
  | fetch hph =>
    simp only [Delivery.setPhase_eq, Delivery.setWorker_workers, Function.update_self] at hx
    exact Or.inl (by rw [hph]; exact hx)
  | close hph _ _ =>
    simp only [Delivery.setWorker_workers, Function.update_self] at hx
    exact Or.inl (by rw [hph]; exact List.mem_cons_of_mem _ hx)
  | post hph _ =>
    simp only [Delivery.setPhase_eq, Delivery.setWorker_workers, Function.update_self] at hx
    exact Or.inl (by rw [hph]; exact hx)
  | returned hph _ =>
    simp only [Delivery.setPhase_eq, Delivery.setWorker_workers, Function.update_self] at hx
    exact Or.inl (by rw [hph]; exact hx)
  | writeBack hph _ _ =>
    simp only [Delivery.setWorker_workers, Function.update_self] at hx
    exact Or.inl (by rw [hph]; exact List.mem_cons_of_mem _ hx)
  | resetStale _ => exact Or.inl hx
  | _ =>
    -- The batch is over.
    simp only [Delivery.setPhase_eq, Delivery.setWorker_workers, Function.update_self,
      WorkerPhase.batch, List.not_mem_nil] at hx

end

inductive RetryStep (now : Time) (d : Delivery) (r : RequestId) : RetryAction → Delivery → Prop
  | load {id : Uuid} {a : DeliveryAttempt} (hr : d.retries r = .idle)
      (hl : lookup DeliveryAttempt.id id d.attempts = some a) (ha : retryable a = true) :
      RetryStep now d r (.select id) (d.setRetry r (.loaded a))
  | refuse {id : Uuid} : RetryStep now d r (.select id) d
  | commit {a : DeliveryAttempt} (hr : d.retries r = .loaded a) (hl : a.id ∉ d.locked) :
      RetryStep now d r .commit
        (({ d with
          attempts := updateWhere (fun row => row.id = a.id) (retryRow a now) d.attempts } :
          Delivery).setRetry r .idle)
  | abort : RetryStep now d r .abort (d.setRetry r .idle)

/-- The list of retry steps is complete. -/
theorem retryStep_of_eq_some {now : Time} {d d' : Delivery} {r : RequestId} {a : RetryAction}
    (h : retryDelivery now d r a = some d') : RetryStep now d r a d' := by
  cases a with
  | select id =>
    simp only [retryDelivery] at h
    split at h
    · split at h
      · split at h <;> cases h
        · exact .load ‹_› ‹_› ‹_›
        · exact .refuse
      · cases h
        exact .refuse
    · cases h
  | commit =>
    simp only [retryDelivery] at h
    split at h
    · split at h <;> cases h
      exact .commit ‹_› ‹_›
    · cases h
  | abort =>
    simp only [retryDelivery] at h
    split at h <;> cases h
    exact .abort

end EventPipeline.Interface

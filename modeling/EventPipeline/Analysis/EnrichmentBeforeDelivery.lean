import EventPipeline.Analysis.IntakeInvariant
import EventPipeline.Analysis.ClaimLocks
import EventPipeline.Interface.KeyRows

/-!
# Enrichment before delivery

The claim of the worker looks at `delivery_attempts` only. In a run whose claims pick no row
of an event that is still `received`, the event of every claimed row has left `received`,
and no step takes it back. So no POST is started for an event that is `received`.
-/

set_option autoImplicit false

namespace EventPipeline.Analysis

open EventPipeline.Model EventPipeline.Program EventPipeline.Interface EventPipeline.Computation

def claims : Action → List Uuid
  | .worker _ (.claim _ picks) => picks
  | _ => []

/-- The claim picks rows only whose event has left `received`. -/
def ClaimsDecided (s : World) (a : Action) : Prop :=
  ∀ row ∈ s.delivery.attempts, row.id ∈ claims a →
    ∀ k ∈ s.intake.keys, k.messageId = row.messageId → k.status ≠ .received

instance (s : World) (a : Action) : Decidable (ClaimsDecided s a) :=
  inferInstanceAs (Decidable (∀ row ∈ s.delivery.attempts, _ → ∀ k ∈ s.intake.keys, _))

def LeftReceived (s : Intake) (m : MessageId) : Prop :=
  ∃ k ∈ s.keys, k.messageId = m ∧ k.status ≠ .received

/-- No writer takes a row back to `received`.
SOURCE: app/consumer/rabbitmq.py:179-181,191-195,229-233,254 -/
theorem rowStep_leftReceived {s s' : Intake} {a : Action} {k k' : IdempotencyKey}
    (hk : k.status ≠ .received) (h : RowStep s s' a k k') : k'.status ≠ .received := by
  cases h with
  | same => exact hk
  | @store _ _ _ ik _ _ _ =>
    show flushColumn ik.status .enriched k.status ≠ .received
    unfold flushColumn
    split
    · exact hk
    · nofun
  | record _ => exact hk
  | flush _ => exact status_flushRow_ne nofun hk

/-- An event that has left `received` does not come back to it.
SOURCE: app/consumer/rabbitmq.py:187-195,220-258 -/
theorem LeftReceived.step {cfg : Settings} {s s' : World} {a : Action} {m : MessageId}
    (h : LeftReceived s.intake m) (hs : Program.step cfg s a = some s') :
    LeftReceived s'.intake m := by
  obtain ⟨k, hk, hid, hst⟩ := h
  obtain ⟨k', hk', hrow⟩ := (keysStep_of_step hs).exists_row hk
  exact ⟨k', hk', hrow.messageId.trans hid, rowStep_leftReceived hst hrow⟩

def BatchesDecided (s : World) : Prop :=
  ∀ w, ∀ x ∈ (s.delivery.workers w).phase.batch, LeftReceived s.intake x.attempt.messageId

/-- A claim that picks decided events keeps the batches so. SOURCE: app/delivery/worker.py:63-79 -/
theorem batchesDecided_step {cfg : Settings} {s s' : World} {a : Action}
    (hinv : BatchesDecided s) (hC : ClaimsDecided s a) (hs : step cfg s a = some s') :
    BatchesDecided s' := by
  intro w x hx
  obtain hx | ⟨t₀, picks, id, rfl, hid, hsnap, _⟩ := batch_of_step hs hx
  · exact (hinv w x hx).step hs
  · obtain ⟨hrow, hrid, hk, hkid⟩ := of_snapshotOf hsnap
    have hleft : LeftReceived s.intake x.attempt.messageId :=
      ⟨x.event, hk, hkid, hC x.attempt hrow (hrid ▸ hid) x.event hk hkid⟩
    exact hleft.step hs

/-- When every claim picks decided events, every batch has only such events. -/
theorem batchesDecided_of_reachableIf {cfg : Settings} {s : World}
    (h : ReachableIf (step cfg) ClaimsDecided World.init s) : BatchesDecided s :=
  h.induct (I := BatchesDecided) (fun _ _ hx => by cases hx) fun _ _ _ _ hinv hC hs =>
    batchesDecided_step hinv hC hs

/-- In a run whose claims pick decided events only, no POST is started for a message while
its key row is `received`. SOURCE: app/delivery/worker.py:58-123 -/
theorem post_after_decision (cfg : Settings) (s s' : World) (a : Action) (p : Post)
    (h : ReachableIf (step cfg) ClaimsDecided World.init s) (hs : step cfg s a = some s')
    (hp : s'.delivery.posts = s.delivery.posts ++ [p]) :
    ∀ k ∈ s.intake.keys, k.messageId = p.messageId → k.status ≠ .received := by
  intro k hk hid
  obtain ⟨w, x, sub, todo, _, hph, _, rfl⟩ := post_of_step hs hp
  have hmem : x ∈ (s.delivery.workers w).phase.batch := by
    rw [hph]
    exact List.mem_cons_self
  obtain ⟨k', hk', hid', hst⟩ := batchesDecided_of_reachableIf h w x hmem
  have hn := ids_nodup_of_reachable h.reachable
  rwa [eq_of_key_eq hn hk hk' (hid.trans hid'.symm)]

/-! ## Concrete histories -/

/-- One subscriber and one event; a worker claims the attempt after the actions `between`. -/
def claimAfter (between : List Action) : List Action :=
  [.subscriber 0 (.create ⟨1⟩ (py "http://a") (py "s")),
    .publish 0 (eventBody (py "m") (py "e") (.obj []))] ++
  acceptance 0 ⟨2⟩ [⟨3⟩] ++ between ++ claimBatch 0 0 [⟨3⟩] ++ [.worker 0 .fetch]

theorem claimAfter_store_enabled :
    (run (step .default) World.init (claimAfter (storeResult 0 []))).isSome = true := by decide

/-- The enrichment is stored before the claim, so the POST comes after it. -/
theorem post_after_decision_claimAfter_store : ∃ p : Post, p.deliveryId = ⟨3⟩ ∧
    ∀ k ∈ ((run (step .default) World.init (claimAfter (storeResult 0 []))).get
        claimAfter_store_enabled).intake.keys,
      k.messageId = p.messageId → k.status ≠ .received :=
  ⟨_, rfl, post_after_decision .default _ _ (.worker 0 .post) _
    (ReachableIf.of_run claimAfter_store_enabled (by decide)) rfl rfl⟩

theorem claimAfter_nothing_enabled :
    (run (step .default) World.init (claimAfter [])).isSome = true := by decide

/-- The worker is faster than the provider: it posts the raw payload of an event that is still
`received`. SOURCE: app/consumer/rabbitmq.py:138-147, app/delivery/worker.py:63-75 -/
theorem post_before_enrichment :
    ¬ ∀ (s s' : World) (a : Action) (p : Post), Reachable (step .default) World.init s →
      step .default s a = some s' → s'.delivery.posts = s.delivery.posts ++ [p] →
      ∀ k ∈ s.intake.keys, k.messageId = p.messageId → k.status ≠ .received := by
  intro h
  have hpost := h _ _ (.worker 0 .post) _ (Reachable.of_run claimAfter_nothing_enabled) rfl rfl
  exact hpost _ (List.Mem.head _) rfl rfl

end EventPipeline.Analysis

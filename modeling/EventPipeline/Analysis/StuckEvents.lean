import EventPipeline.Analysis.IntakeInvariant
import EventPipeline.Interface.KeyRows

/-!
# Events that are stuck in `received`

The reconciler publishes a stuck event again with the message id of its key row. The copy
meets the duplicate check of `handle_message`, so no call ever owns the event again, and only
a call that owns an event stores an enrichment. An event that no call owns is therefore
never enriched, whatever is published.
-/

set_option autoImplicit false

namespace EventPipeline.Analysis

open EventPipeline.Model EventPipeline.Program EventPipeline.Interface EventPipeline.Computation

/-! ## Without an owner -/

/-- The message is recorded, no call owns it, and its row is not enriched. -/
structure Ownerless (m : MessageId) (s : Intake) : Prop where
  recorded : m ∈ s.ids
  no_owner : ∀ t, (s.handlers t).owns ≠ some m
  not_enriched : ∀ k ∈ s.keys, k.messageId = m → k.status ≠ .enriched

/-- The row of an event that no call owns is enriched by no step. -/
theorem not_enriched_of_rowStep {s s' : Intake} {a : Action} {k k' : IdempotencyKey}
    (hfree : ∀ t, (s.handlers t).owns ≠ some k.messageId) (hk : k.status ≠ .enriched)
    (h : RowStep s s' a k k') : k'.status ≠ .enriched := by
  intro henriched
  obtain ⟨t, _, _, _, hh, _⟩ := h.store_of_enriched hk henriched
  exact hfree t (by rw [hh]; rfl)

/-- Nothing brings an owner back: a call comes to own only a message that is new.
SOURCE: app/consumer/rabbitmq.py:131-136 -/
theorem ownerless_step {cfg : Settings} {m : MessageId} {s s' : World} {a : Action}
    (hreach : Reachable (step cfg) World.init s) (h : Ownerless m s.intake)
    (hs : step cfg s a = some s') : Ownerless m s'.intake := by
  have hkeys := keysStep_of_step hs
  have hinv := intakeInv_of_reachable hreach
  refine ⟨hkeys.ids_subset h.recorded, fun t ho => ?_, fun k' hk' hm => ?_⟩
  · obtain hown | hins := hkeys.owns ho
    · exact h.no_owner t hown
    · exact hinv.open_new t m hins h.recorded
  · obtain ⟨k, hk, hrow⟩ | ⟨_, _, _, _, _, _, rfl⟩ := hkeys.of_mem hk'
    · have hid : k.messageId = m := hrow.messageId ▸ hm
      exact not_enriched_of_rowStep (hid ▸ h.no_owner) (h.not_enriched k hk hid) hrow
    · nofun

/-- An event that nobody owns is never owned again. -/
theorem ownerless_reachable {cfg : Settings} {m : MessageId} {s s' : World}
    (hreach : Reachable (step cfg) World.init s) (h : Ownerless m s.intake)
    (hs : Reachable (step cfg) s s') : Ownerless m s'.intake :=
  hs.induct (I := fun s => Ownerless m s.intake) h fun _ _ _ hm ih ha =>
    ownerless_step (hreach.trans hm) ih ha

/-! ## Republishing a stuck event -/

/-- The row of `m` is `received` and older than the stale cutoff, its count is below the cap,
and no call is running for `m`. SOURCE: app/consumer/rabbitmq.py:211-223 -/
structure StuckEvent (cfg : Settings) (s : World) (m : MessageId) : Prop where
  row : ∃ k ∈ s.intake.keys, k.messageId = m ∧ isStale cfg s.now k = true ∧
    k.reconcileCount < cfg.reconcilerMaxAttempts
  no_call : ∀ t, (s.intake.handlers t).owns ≠ some m

/-- Between `s` and `s'` a reconciler cycle publishes `m` as copy `t`, and a call with a
provider that returns `r` processes this copy to its end. Anything else may happen as well.
SOURCE: app/consumer/rabbitmq.py:106-195,236-254 -/
structure RepublishedAndProcessed (cfg : Settings) (s : World) (m : MessageId) (t : Tag)
    (r : List (PyStr × Json)) (s' : World) : Prop where
  published : ∃ before after p ik todo dirty as,
    Reachable (step cfg) s before ∧
    before.intake.reconcilers p = .running (ik :: todo) dirty ∧ ik.messageId = m ∧
    step cfg before (.reconciler p (.publish (.accepted t))) = some after ∧
    run (step cfg) after as = some s' ∧
    ∀ o, .handler t (.enrich o) ∈ as → o = .result r
  ended : s'.intake.handlers t = .idle
  settled : ∃ c, s'.intake.copies t = some c ∧ c.held = false

def EnrichedWith (s : World) (m : MessageId) (r : List (PyStr × Json)) : Prop :=
  ∃ k ∈ s.intake.keys, k.messageId = m ∧ k.status = .enriched ∧ k.enrichedPayload = some (.obj r) ∧
    k.enrichedAt ≠ none

/-- A stuck event is not enriched when its re-enqueued copy is processed, in no history and
from no reachable state. SOURCE: app/consumer/rabbitmq.py:131-136,200-265 -/
theorem republished_never_enriched (cfg : Settings) (s s' : World) (m : MessageId) (t : Tag)
    (r : List (PyStr × Json)) (h : Reachable (step cfg) World.init s) (hm : StuckEvent cfg s m)
    (hp : RepublishedAndProcessed cfg s m t r s') : ¬ EnrichedWith s' m r := by
  obtain ⟨k, hk, hid, hstale, _⟩ := hm.row
  have hreceived : k.status = .received := by
    simp only [isStale, Bool.and_eq_true, decide_eq_true_eq] at hstale
    exact hstale.1
  have hstart : Ownerless m s.intake := by
    refine ⟨hid ▸ List.mem_map_of_mem hk, hm.no_call, fun k' hk' hid' => ?_⟩
    rw [eq_of_key_eq (ids_nodup_of_reachable h) hk' hk (hid'.trans hid.symm), hreceived]
    nofun
  obtain ⟨before, after, p, ik, todo, dirty, as, hbefore, _, _, hpub, has, _⟩ := hp.published
  have hreach : Reachable (step cfg) s s' := (hbefore.snoc hpub).trans ⟨as, has⟩
  rintro ⟨k', hk', hid', henriched, _, _⟩
  exact (ownerless_reachable h hstart hreach).not_enriched k' hk' hid' henriched

/-! ## A concrete history -/

/-- The consumer dies after the early ACK, and five minutes pass. -/
def diesAfterAck : List Action :=
  [.publish 0 (eventBody (py "m") (py "e") (.obj []))] ++ acceptance 0 ⟨1⟩ [] ++
  [.handler 0 .crash, .tick (minutes 5 + 1)]

/-- The reconciler publishes the event as copy 1, and a call processes the copy. -/
def processAgain : List Action :=
  [.handler 1 (.start ⟨2⟩), .handler 1 .insert, .handler 1 .ack, .reconciler 0 .commit]

def selectStale : Action := .reconciler 0 (.select (minutes 5 + 1) [py "m"])

def publishAgain : Action := .reconciler 0 (.publish (.accepted 1))

theorem diesAfterAck_enabled :
    (run (step .default) World.init diesAfterAck).isSome = true := by decide

def stuckState : World := (run (step .default) World.init diesAfterAck).get diesAfterAck_enabled

theorem processAgain_enabled :
    (run (step .default) stuckState ([selectStale, publishAgain] ++ processAgain)).isSome = true := by
  decide

def processedState : World :=
  (run (step .default) stuckState ([selectStale, publishAgain] ++ processAgain)).get
    processAgain_enabled

/-- The consumer has died between the ACK and the enrichment. -/
theorem stuckEvent_stuckState : StuckEvent .default stuckState (py "m") := by
  refine ⟨⟨_, List.Mem.head _, rfl, by decide, by decide⟩, fun t => ?_⟩
  match t with
  | 0 => decide
  | t + 1 => exact nofun

/-- The event is re-enqueued, and the copy is processed. -/
theorem processed_stuckState :
    RepublishedAndProcessed .default stuckState (py "m") 1 [] processedState := by
  refine ⟨⟨_, _, 0, _, _, _, processAgain, ⟨[selectStale], rfl⟩, rfl, rfl, rfl, rfl, ?_⟩, rfl,
    ⟨_, rfl, rfl⟩⟩
  simp [processAgain]

/-- The event is not enriched by that. -/
theorem republished_never_enriched_stuckState : ¬ EnrichedWith processedState (py "m") [] :=
  republished_never_enriched .default stuckState processedState (py "m") 1 []
    (Reachable.of_run diesAfterAck_enabled) stuckEvent_stuckState processed_stuckState

/-- The re-enqueued copy is thrown away by the duplicate check.
SOURCE: app/consumer/rabbitmq.py:132-136 -/
theorem stuck_event_not_recovered :
    ¬ ∀ (s s' : World) (m : MessageId) (t : Tag) (r : List (PyStr × Json)),
      Reachable (step .default) World.init s → StuckEvent .default s m →
      RepublishedAndProcessed .default s m t r s' → EnrichedWith s' m r := by
  intro h
  obtain ⟨k, hk, _, hstatus, _⟩ := h stuckState processedState (py "m") 1 []
    (Reachable.of_run diesAfterAck_enabled) stuckEvent_stuckState processed_stuckState
  have hkeys : ∀ k ∈ processedState.intake.keys, k.status = .received := by decide
  rw [hkeys k hk] at hstatus
  cases hstatus

end EventPipeline.Analysis

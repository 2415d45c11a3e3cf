import EventPipeline.Analysis.IntakeInvariant
import EventPipeline.Interface.KeyRows

/-!
# The status of an event

Two writers decide the status of a key row: the call that owns the event stores an
enrichment, and a reconciler cycle abandons it. Neither looks at the row again before it
writes. In a run where no enrichment is stored over an abandoned event and no enriched event
is abandoned, every status is decided at most once, and `enriched` goes with the two columns
of the enrichment.
-/

set_option autoImplicit false

namespace EventPipeline.Analysis

open EventPipeline.Model EventPipeline.Program EventPipeline.Interface EventPipeline.Computation

/-! ## The condition -/

/-- The event whose enrichment an action stores. SOURCE: app/consumer/rabbitmq.py:191-195 -/
def stores (s : Intake) : Action → List MessageId
  | .handler t .write =>
    match s.handlers t with
    | .storeLoaded m _ _ _ => [m]
    | _ => []
  | _ => []

/-- The events whose abandonment an action commits. SOURCE: app/consumer/rabbitmq.py:229-233,261 -/
def abandons (s : Intake) : Action → List MessageId
  | .reconciler p .commit => (s.reconcilers p).dirty.filterMap KeyWrite.abandonedId
  | _ => []

/-- No late decision: a call that stores an enrichment finds the row not abandoned, and a
cycle that commits an abandonment finds the row not enriched. -/
def NoLateDecision (s : World) (a : Action) : Prop :=
  ∀ k ∈ s.intake.keys, (k.messageId ∈ stores s.intake a → k.status ≠ .failed) ∧
    (k.messageId ∈ abandons s.intake a → k.status ≠ .enriched)

instance (s : World) (a : Action) : Decidable (NoLateDecision s a) :=
  inferInstanceAs (Decidable (∀ k ∈ s.intake.keys, _ ∧ _))

/-! ## The invariant -/

/-- The columns of the enrichment go with the status; no modelled step dispatches. -/
structure RowOk (k : IdempotencyKey) : Prop where
  enriched : k.status = .enriched → k.enrichedPayload ≠ none ∧ k.enrichedAt ≠ none
  others : k.status ≠ .enriched → k.enrichedPayload = none ∧ k.enrichedAt = none
  not_dispatched : k.status ≠ .dispatched

/-- An owned event is not enriched yet, and the snapshot that its owner has loaded says so. -/
structure EventInv (s : Intake) : Prop where
  rows : ∀ k ∈ s.keys, RowOk k
  undecided : ∀ t m, (s.handlers t).owns = some m → ∀ k ∈ s.keys, k.messageId = m →
    k.status ≠ .enriched
  loaded : ∀ t m enriched at' ik, s.handlers t = .storeLoaded m enriched at' ik →
    RowOk ik ∧ ik.status ≠ .enriched

/-- A new row is consistent. SOURCE: app/consumer/rabbitmq.py:47-66 -/
theorem rowOk_newKey (ev : NewEvent) (receivedAt : Time) : RowOk (newKey ev receivedAt) :=
  ⟨nofun, fun _ => ⟨rfl, rfl⟩, nofun⟩

/-- The stored enrichment, over a snapshot that is not enriched: all three columns are
written. SOURCE: app/consumer/rabbitmq.py:191-195 -/
theorem storeEnrichment_of_undecided {ik : IdempotencyKey} (hok : RowOk ik)
    (hst : ik.status ≠ .enriched) (enriched : Json) (at' : Time) (k : IdempotencyKey) :
    storeEnrichment ik enriched at' k =
      { k with enrichedPayload := some enriched, status := .enriched, enrichedAt := some at' } := by
  obtain ⟨hpayload, hat⟩ := hok.others hst
  unfold storeEnrichment
  rw [flushColumn_of_ne _ hst, flushColumn_of_ne _ (by rw [hpayload]; nofun),
    flushColumn_of_ne _ (by rw [hat]; nofun)]

/-- A row in a step that meets the condition: it stays in order, and its status is kept or
decided. -/
theorem rowStep_decided {s s' : World} {a : Action} {k k' : IdempotencyKey}
    (hinv : EventInv s.intake) (hC : NoLateDecision s a) (hk : k ∈ s.intake.keys)
    (h : RowStep s.intake s'.intake a k k') :
    RowOk k' ∧ (k'.status = k.status ∨
      k.status = .received ∧ (k'.status = .enriched ∨ k'.status = .failed)) := by
  have hok := hinv.rows k hk
  cases h with
  | same => exact ⟨hok, Or.inl rfl⟩
  | @store t enriched at' ik _ hh _ =>
    obtain ⟨hik, hst⟩ := hinv.loaded t _ _ _ _ hh
    have hne : k.status ≠ .enriched := hinv.undecided t _ (by rw [hh]; rfl) k hk rfl
    have hnf : k.status ≠ .failed := (hC k hk).1 (by simp only [stores, hh, List.mem_singleton])
    rw [storeEnrichment_of_undecided hik hst]
    refine ⟨⟨fun _ => ⟨nofun, nofun⟩, fun h => absurd rfl h, nofun⟩, Or.inr ⟨?_, Or.inl rfl⟩⟩
    cases hs : k.status with
    | received => rfl
    | enriched => exact absurd hs hne
    | dispatched => exact absurd hs hok.not_dispatched
    | failed => exact absurd hs hnf
  | record hh => exact ⟨⟨hok.enriched, hok.others, hok.not_dispatched⟩, Or.inl rfl⟩
  | @flush p dirty _ hc =>
    obtain heq | ⟨hfailed, error, hmem⟩ := flushRow_status dirty k
    · refine ⟨⟨fun h => ?_, fun h => ?_, by rw [heq]; exact hok.not_dispatched⟩, Or.inl heq⟩
      · rw [flushRow_enrichedPayload, flushRow_enrichedAt]
        exact hok.enriched (heq ▸ h)
      · rw [flushRow_enrichedPayload, flushRow_enrichedAt]
        exact hok.others (heq ▸ h)
    · have hne : k.status ≠ .enriched := by
        refine (hC k hk).2 ?_
        simp only [abandons, hc, Cycle.dirty, List.mem_filterMap]
        exact ⟨_, hmem, rfl⟩
      refine ⟨⟨fun h => ?_, fun _ => ?_, by rw [hfailed]; nofun⟩, ?_⟩
      · rw [hfailed] at h
        cases h
      · rw [flushRow_enrichedPayload, flushRow_enrichedAt]
        exact hok.others hne
      · cases hs : k.status with
        | received => exact Or.inr ⟨rfl, Or.inr hfailed⟩
        | enriched => exact absurd hs hne
        | dispatched => exact absurd hs hok.not_dispatched
        | failed => exact Or.inl hfailed

/-- Only the owner of an event enriches its row, and with that it ends. -/
theorem rowStep_undecided {s s' : Intake} {a : Action} {k k' : IdempotencyKey} {t : Tag}
    (howner : ∀ t t' m, (s.handlers t).owns = some m → (s.handlers t').owns = some m → t = t')
    (hold : (s.handlers t).owns = some k.messageId)
    (hnew : (s'.handlers t).owns = some k.messageId) (hk : k.status ≠ .enriched)
    (h : RowStep s s' a k k') : k'.status ≠ .enriched := by
  intro henriched
  obtain ⟨t', _, _, _, hh, ht⟩ := h.store_of_enriched hk henriched
  have heq : t = t' := howner t t' _ hold (by rw [hh]; rfl)
  rw [heq, ht] at hnew
  cases hnew

/-- A step that decides nothing late keeps the rows consistent.
SOURCE: app/consumer/rabbitmq.py:187-195,220-261 -/
theorem eventInv_step {cfg : Settings} {s s' : World} {a : Action}
    (hintake : IntakeInv cfg s.intake) (hinv : EventInv s.intake) (hC : NoLateDecision s a)
    (hs : step cfg s a = some s') : EventInv s'.intake := by
  have hkeys := keysStep_of_step hs
  constructor
  · intro k' hk'
    obtain ⟨k, hk, hrow⟩ | ⟨_, ev, receivedAt, _, _, _, rfl⟩ := hkeys.of_mem hk'
    · exact (rowStep_decided hinv hC hk hrow).1
    · exact rowOk_newKey ev receivedAt
  · intro t m ho k' hk' hm
    obtain ⟨k, hk, hrow⟩ | ⟨_, _, _, _, _, _, rfl⟩ := hkeys.of_mem hk'
    · have hid : k.messageId = m := hrow.messageId ▸ hm
      obtain hown | hins := hkeys.owns ho
      · subst hid
        exact rowStep_undecided hintake.owner_unique hown ho (hinv.undecided t _ hown k hk rfl) hrow
      · exact absurd (hid ▸ List.mem_map_of_mem hk) (hintake.open_new t m hins)
    · nofun
  · intro t m enriched at' ik hl
    obtain hl | ⟨hown, hlook⟩ := hkeys.loaded hl
    · exact hinv.loaded t m enriched at' ik hl
    · obtain ⟨hmem, hid⟩ := of_lookup_eq_some hlook
      exact ⟨hinv.rows ik hmem, hinv.undecided t m hown ik hmem hid⟩

/-- In a run that decides nothing late every row is consistent. -/
theorem eventInv_of_reachableIf {cfg : Settings} {s : World}
    (h : ReachableIf (step cfg) NoLateDecision World.init s) : EventInv s.intake := by
  refine h.induct (I := fun s => EventInv s.intake) ?_ ?_
  · exact ⟨nofun, nofun, nofun⟩
  · intro s a s' hreach hinv hC hs
    exact eventInv_step (intakeInv_of_reachable hreach.reachable) hinv hC hs

/-! ## The result -/

/-- Every row of `s` is still there in `s'`, and its status is the same, or it was `received`
and is now `enriched` or `failed`. -/
def StatusKeptOrDecided (s s' : World) : Prop :=
  ∀ k ∈ s.intake.keys, ∃ k' ∈ s'.intake.keys, k'.messageId = k.messageId ∧
    (k'.status = k.status ∨
      k.status = .received ∧ (k'.status = .enriched ∨ k'.status = .failed))

/-- Without a step every status is kept. -/
theorem StatusKeptOrDecided.refl (s : World) : StatusKeptOrDecided s s :=
  fun k hk => ⟨k, hk, rfl, Or.inl rfl⟩

/-- What is kept or decided twice is kept or decided. -/
theorem StatusKeptOrDecided.trans {s₁ s₂ s₃ : World} (h : StatusKeptOrDecided s₁ s₂)
    (h' : StatusKeptOrDecided s₂ s₃) : StatusKeptOrDecided s₁ s₃ := by
  intro k hk
  obtain ⟨k', hk', hid, hst⟩ := h k hk
  obtain ⟨k'', hk'', hid', hst'⟩ := h' k' hk'
  refine ⟨k'', hk'', hid'.trans hid, ?_⟩
  obtain heq | ⟨hrec, hdec⟩ := hst
  · rwa [heq] at hst'
  · obtain heq | ⟨hrec', _⟩ := hst'
    · rw [heq]
      exact Or.inr ⟨hrec, hdec⟩
    · rw [hrec'] at hdec
      obtain h | h := hdec <;> cases h

/-- What the status column is for, between two states of a run. -/
structure DecidedOnce (s s' : World) : Prop where
  kept_or_decided : StatusKeptOrDecided s s'
  enriched_iff : ∀ k ∈ s'.intake.keys,
    k.status = .enriched ↔ k.enrichedPayload ≠ none ∧ k.enrichedAt ≠ none

/-- In a run without a late decision the status of an event is decided at most once.
SOURCE: app/consumer/rabbitmq.py:149-197,208-261, app/db/README.md:21-27 -/
theorem status_decided_once (cfg : Settings) (s s' : World)
    (h : ReachableIf (step cfg) NoLateDecision World.init s)
    (h' : ReachableIf (step cfg) NoLateDecision s s') : DecidedOnce s s' := by
  have hinv := eventInv_of_reachableIf (h.trans h')
  refine ⟨?_, fun k hk => ⟨(hinv.rows k hk).enriched, fun hsome => ?_⟩⟩
  · refine ReachableIf.rel StatusKeptOrDecided.refl StatusKeptOrDecided.trans ?_ h h'
    intro s a s' hreach hC hs k hk
    obtain ⟨k', hk', hrow⟩ := (keysStep_of_step hs).exists_row hk
    exact ⟨k', hk', hrow.messageId,
      (rowStep_decided (eventInv_of_reachableIf hreach) hC hk hrow).2⟩
  · by_contra hne
    exact hsome.1 ((hinv.rows k hk).others hne).1

/-! ## Concrete histories -/

/-- While the provider is slow, ten cycles republish the event and an eleventh abandons it. -/
def abandonedWhileEnriching : List Action :=
  [.publish 0 (eventBody (py "m") (py "e") (.obj []))] ++ acceptance 0 ⟨1⟩ [] ++
  [.tick (minutes 5 + 1)] ++
  (List.range 10).flatMap (fun i => republishCycle 0 (minutes 5 + 1) (py "m") (i + 1)) ++
  [.select (minutes 5 + 1) [py "m"], .abandon, .commit].map (.reconciler 0)

set_option maxRecDepth 4000 in
theorem abandonedWhileEnriching_enabled :
    (run (step .default) World.init abandonedWhileEnriching).isSome = true := by decide

def abandonedState : World :=
  (run (step .default) World.init abandonedWhileEnriching).get abandonedWhileEnriching_enabled

set_option maxRecDepth 4000 in
theorem storeResult_enabled :
    (run (step .default) abandonedState (storeResult 0 [])).isSome = true := by decide

set_option maxRecDepth 4000 in
/-- Up to the abandonment the event is decided once. -/
theorem status_decided_once_abandonedState : DecidedOnce World.init abandonedState :=
  status_decided_once .default World.init abandonedState (ReachableIf.refl _)
    (ReachableIf.of_run abandonedWhileEnriching_enabled (by decide))

set_option maxRecDepth 4000 in
/-- A late enrichment brings an abandoned event back: its status is decided twice.
SOURCE: app/consumer/rabbitmq.py:187-195 -/
theorem status_decided_twice :
    ¬ ∀ s s' : World, Reachable (step .default) World.init s → Reachable (step .default) s s' →
      DecidedOnce s s' := by
  intro h
  have hst : ∀ k ∈ abandonedState.intake.keys, k.status = .failed := by decide
  have hst' : ∀ k ∈ ((run (step .default) abandonedState (storeResult 0 [])).get
      storeResult_enabled).intake.keys, k.status = .enriched := by decide
  have hone : abandonedState.intake.keys ≠ [] := by decide
  obtain ⟨k, hk⟩ := List.exists_mem_of_ne_nil _ hone
  obtain ⟨k', hk', _, hkept⟩ := (h abandonedState _
    (Reachable.of_run abandonedWhileEnriching_enabled)
    (Reachable.of_run storeResult_enabled)).kept_or_decided k hk
  rw [hst k hk, hst' k' hk'] at hkept
  obtain hkept | ⟨hkept, _⟩ := hkept <;> cases hkept

end EventPipeline.Analysis

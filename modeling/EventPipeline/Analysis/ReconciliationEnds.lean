import EventPipeline.Analysis.ReconcilerInvariant
import EventPipeline.Analysis.EventStatus
import EventPipeline.Computation.Countdown

/-!
# Reconciliation ends

While every publish and every commit succeeds, a cycle counts each row that it has picked
once more, or abandons the row at the cap. So the stale rows are a countdown: the weight of a
row is the number of cycles that may still pick it, and a cycle is a round that picks a full
batch or all that is left. The calls that handle the re-enqueued copies write no count and
bring no row back to `received`.
-/

set_option autoImplicit false

namespace EventPipeline.Analysis

open EventPipeline.Model EventPipeline.Program EventPipeline.Interface EventPipeline.Computation

/-! ## The measure -/

/-- The rows of the set `D` that are still `received`. -/
def remaining (D : Finset MessageId) (s : World) : List IdempotencyKey :=
  s.intake.keys.filter fun k => k.messageId ∈ D ∧ k.status = .received

/-- The sum of `M + 1 - c` over the remaining rows. -/
def mu (cfg : Settings) (D : Finset MessageId) (s : World) : ℕ :=
  ((remaining D s).map fun k => cfg.reconcilerMaxAttempts + 1 - k.reconcileCount).sum

/-- How many cycles may still pick the row. -/
def rowWeight (cfg : Settings) (k : IdempotencyKey) : ℕ :=
  if k.status = .received then cfg.reconcilerMaxAttempts + 1 - k.reconcileCount else 0

def weight (cfg : Settings) (s : World) (m : MessageId) : ℕ :=
  ((lookup IdempotencyKey.messageId m s.intake.keys).map (rowWeight cfg)).getD 0

section
variable {cfg : Settings} {D : Finset MessageId} {s : World}

/-- The weight of a message is that of its row. -/
theorem weight_of_mem (hids : s.intake.ids.Nodup) {k : IdempotencyKey} (hk : k ∈ s.intake.keys) :
    weight cfg s k.messageId = rowWeight cfg k := by
  rw [weight, lookup_of_mem hids hk]
  rfl

/-- The remaining rows are those of the set that are still received. -/
theorem mem_remaining {k : IdempotencyKey} :
    k ∈ remaining D s ↔ k ∈ s.intake.keys ∧ k.messageId ∈ D ∧ k.status = .received := by
  simp [remaining]

/-- No message remains twice. -/
theorem remaining_ids_nodup (hids : s.intake.ids.Nodup) :
    ((remaining D s).map IdempotencyKey.messageId).Nodup :=
  hids.sublist (List.filter_sublist.map _)

/-- A message without a remaining row weighs nothing. -/
theorem weight_of_not_remaining {m : MessageId} (hm : m ∈ D)
    (h : m ∉ (remaining D s).map IdempotencyKey.messageId) : weight cfg s m = 0 := by
  cases hl : lookup IdempotencyKey.messageId m s.intake.keys with
  | none => rw [weight, hl]; rfl
  | some k =>
    obtain ⟨hk, rfl⟩ := of_lookup_eq_some hl
    have hst : k.status ≠ .received := fun hst =>
      h (List.mem_map_of_mem (mem_remaining.2 ⟨hk, hm, hst⟩))
    rw [weight, hl, Option.map_some, Option.getD_some, rowWeight, if_neg hst]

/-- The measure is the total of the weights. -/
theorem mu_eq_total (hids : s.intake.ids.Nodup) : mu cfg D s = total D (weight cfg s) := by
  have hsub : ((remaining D s).map IdempotencyKey.messageId).toFinset ⊆ D := by
    intro m hm
    obtain ⟨k, hk, rfl⟩ := List.mem_map.1 (List.mem_toFinset.1 hm)
    exact (mem_remaining.1 hk).2.1
  have hzero : ∀ m ∈ D, m ∉ ((remaining D s).map IdempotencyKey.messageId).toFinset →
      weight cfg s m = 0 :=
    fun m hm hnot => weight_of_not_remaining hm fun h => hnot (List.mem_toFinset.2 h)
  rw [total, ← Finset.sum_subset hsub hzero, List.sum_toFinset _ (remaining_ids_nodup hids),
    List.map_map, mu]
  refine congrArg List.sum (List.map_congr_left fun k hk => ?_)
  obtain ⟨hmem, _, hst⟩ := mem_remaining.1 hk
  rw [Function.comp_apply, weight_of_mem hids hmem, rowWeight, if_pos hst]

/-- The items that are left are the remaining rows, when no count is over the cap. -/
theorem left_eq_remaining (hids : s.intake.ids.Nodup)
    (hcap : ∀ k ∈ s.intake.keys, k.messageId ∈ D → k.reconcileCount ≤ cfg.reconcilerMaxAttempts) :
    left D (weight cfg s) = ((remaining D s).map IdempotencyKey.messageId).toFinset := by
  ext m
  rw [left, Finset.mem_filter, List.mem_toFinset]
  constructor
  · rintro ⟨hm, hpos⟩
    by_contra hnot
    rw [weight_of_not_remaining hm hnot] at hpos
    exact absurd hpos (lt_irrefl 0)
  · intro hm
    obtain ⟨k, hk, rfl⟩ := List.mem_map.1 hm
    obtain ⟨hmem, hD, hst⟩ := mem_remaining.1 hk
    refine ⟨hD, ?_⟩
    have hle := hcap k hmem hD
    rw [weight_of_mem hids hmem, rowWeight, if_pos hst]
    omega

/-- As many messages have weight as rows remain. -/
theorem card_left (hids : s.intake.ids.Nodup)
    (hcap : ∀ k ∈ s.intake.keys, k.messageId ∈ D → k.reconcileCount ≤ cfg.reconcilerMaxAttempts) :
    (left D (weight cfg s)).card = (remaining D s).length := by
  rw [left_eq_remaining hids hcap, List.toFinset_card_of_nodup (remaining_ids_nodup hids),
    List.length_map]

end

/-! ## The weights in one step -/

section
variable {cfg : Settings} {D : Finset MessageId} {s s' : World} {a : Action} {m : MessageId}

/-- A step that commits no cycle lowers a weight only by storing the enrichment.
SOURCE: app/consumer/rabbitmq.py:131-138,187-195 -/
theorem rowWeight_of_rowStep {k k' : IdempotencyKey}
    (ha : ∀ p, a ≠ .reconciler p .commit) (h : RowStep s.intake s'.intake a k k') :
    rowWeight cfg k' ≤ rowWeight cfg k ∧
      (k.messageId ∉ stores s.intake a → rowWeight cfg k' = rowWeight cfg k) := by
  cases h with
  | same => exact ⟨le_refl _, fun _ => rfl⟩
  | @store t enriched at' ik _ hh _ =>
    constructor
    · obtain heq | heq := storeEnrichment_status ik enriched at' k
      · rw [rowWeight, heq, if_neg (by decide)]
        exact Nat.zero_le _
      · rw [rowWeight, heq]
        exact le_refl _
    · intro hnot
      refine absurd ?_ hnot
      simp only [stores, hh, List.mem_singleton]
  | record hh => exact ⟨le_refl _, fun _ => rfl⟩
  | @flush p _ _ _ => exact absurd rfl (ha p)

/-- A cycle takes one off the weight of each row that it has changed.
SOURCE: app/consumer/rabbitmq.py:223-261 -/
theorem rowWeight_flushRow {p : ConsumerId} {i : Intake} (hinv : CycleInv cfg p i)
    (hids : i.ids.Nodup) {dirty : List KeyWrite} (hc : i.reconcilers p = .running [] dirty)
    {k : IdempotencyKey} (hk : k ∈ i.keys) : rowWeight cfg (flushRow dirty k) =
      rowWeight cfg k - if k.messageId ∈ dirty.map KeyWrite.messageId then 1 else 0 := by
  by_cases hmem : k.messageId ∈ dirty.map KeyWrite.messageId
  · rw [if_pos hmem]
    obtain ⟨hnot, _⟩ | ⟨hcap, e, heq⟩ | ⟨hlt, heq⟩ := flushRow_cases hinv hids hc hk
    · exact absurd hmem hnot
    · -- An abandoned row was at the cap, so its weight was one at most.
      rw [heq, rowWeight, if_neg (show EventStatus.failed ≠ .received by decide), rowWeight]
      split <;> omega
    · rw [heq]
      simp only [rowWeight]
      split <;> omega
  · rw [if_neg hmem, flushRow_of_not_mem dirty k hmem, Nat.sub_zero]

/-- The weight of a recorded message before and after a step. -/
theorem weight_of_step (hreach : Reachable (step cfg) World.init s)
    (hm : m ∈ s.intake.ids) (hs : step cfg s a = some s') : ∃ k k', k.messageId = m ∧
      k ∈ s.intake.keys ∧ RowStep s.intake s'.intake a k k' ∧
      weight cfg s m = rowWeight cfg k ∧ weight cfg s' m = rowWeight cfg k' := by
  obtain ⟨k, hk, rfl⟩ := List.mem_map.1 hm
  obtain ⟨k', hk', hrow⟩ := (keysStep_of_step hs).exists_row hk
  refine ⟨k, k', rfl, hk, hrow, weight_of_mem (ids_nodup_of_reachable hreach) hk, ?_⟩
  rw [← hrow.messageId]
  exact weight_of_mem (ids_nodup_of_reachable (hreach.snoc hs)) hk'

/-- Outside a commit no weight rises. SOURCE: app/consumer/rabbitmq.py:149-195 -/
theorem weight_le_of_step (hreach : Reachable (step cfg) World.init s)
    (hm : m ∈ s.intake.ids) (ha : ∀ p, a ≠ .reconciler p .commit) (hs : step cfg s a = some s') :
    weight cfg s' m ≤ weight cfg s m := by
  obtain ⟨k, k', _, _, hrow, hw, hw'⟩ := weight_of_step hreach hm hs
  rw [hw, hw']
  exact (rowWeight_of_rowStep ha hrow).1

/-- Only a store lowers a weight between two commits. SOURCE: app/consumer/rabbitmq.py:182-195 -/
theorem weight_eq_of_step (hreach : Reachable (step cfg) World.init s)
    (hm : m ∈ s.intake.ids) (ha : ∀ p, a ≠ .reconciler p .commit) (hs : step cfg s a = some s')
    (hstore : m ∉ stores s.intake a) : weight cfg s' m = weight cfg s m := by
  obtain ⟨k, k', rfl, _, hrow, hw, hw'⟩ := weight_of_step hreach hm hs
  rw [hw, hw']
  exact (rowWeight_of_rowStep ha hrow).2 hstore

/-- A commit lowers the weight of the rows that it has counted or abandoned by one.
SOURCE: app/consumer/rabbitmq.py:220-261 -/
theorem weight_of_commit {p : ConsumerId} (hinv : CycleInv cfg p s.intake)
    (hreach : Reachable (step cfg) World.init s) (hm : m ∈ s.intake.ids)
    {dirty : List KeyWrite} (hc : s.intake.reconcilers p = .running [] dirty)
    (hs : step cfg s (.reconciler p .commit) = some s') : weight cfg s' m =
      weight cfg s m - if m ∈ dirty.map KeyWrite.messageId then 1 else 0 := by
  have hids := ids_nodup_of_reachable hreach
  have hids' := ids_nodup_of_reachable (hreach.snoc hs)
  obtain ⟨k, hk, rfl⟩ := List.mem_map.1 hm
  have hk' : flushRow dirty k ∈ s'.intake.keys := by
    cases worldStep_of_eq_some hs with
    | reconciler h =>
      cases h with
      | commit hc' =>
        rw [hc] at hc'
        cases hc'
        show _ ∈ flushWrites dirty s.intake.keys
        rw [flushWrites_eq_map]
        exact List.mem_map_of_mem hk
      | stop _ ha => obtain ha | ha := ha <;> cases ha
  rw [weight_of_mem hids hk, ← rowWeight_flushRow hinv hids hc hk,
    ← weight_of_mem hids' hk', flushRow_messageId]

end

/-! ## One cycle -/

/-- The actions of a cycle of consumer `p` between its SELECT and its commit, with every
publish accepted, and the actions of all other parts. SOURCE: app/consumer/rabbitmq.py:221-259 -/
def PublishSucceeds (p : ConsumerId) (a : Action) : Prop :=
  consumerOf a = none ∨ a = .reconciler p .abandon ∨ ∃ t, a = .reconciler p (.publish (.accepted t))

/-- A cycle of consumer `p` in which every publish and the commit succeed. It selects at time
`T` or later, when no row outside `D` is stale. Other parts of the system may act in it.
SOURCE: app/consumer/rabbitmq.py:205-261 -/
structure Cycle (cfg : Settings) (p : ConsumerId) (T : Time) (D : Finset MessageId) (s : World)
    (as : List Action) (s' : World) : Prop where
  actions : ∃ t₀ picks mid, as = .reconciler p (.select t₀ picks) :: mid ++ [.reconciler p .commit] ∧
    T ≤ t₀ ∧ (∀ k ∈ s.intake.keys, isStale cfg t₀ k = true → k.messageId ∈ D) ∧
    ∀ a ∈ mid, PublishSucceeds p a
  run : run (step cfg) s as = some s'

/-- The action stores no enrichment of a row in `D`. -/
def StoresNothing (D : Finset MessageId) (s : World) (a : Action) : Prop :=
  ∀ m ∈ stores s.intake a, m ∉ D

instance (D : Finset MessageId) (s : World) (a : Action) : Decidable (StoresNothing D s a) :=
  inferInstanceAs (Decidable (∀ m ∈ stores s.intake a, m ∉ D))

/-- What is known of the rows in `D` at every moment from time `T` on. -/
structure Watched (cfg : Settings) (T : Time) (D : Finset MessageId) (s : World) : Prop where
  recorded : ∀ m ∈ D, m ∈ s.intake.ids
  old : ∀ k ∈ s.intake.keys, k.messageId ∈ D → k.receivedAt + cfg.reconcilerStale < T
  capped : ∀ k ∈ s.intake.keys, k.messageId ∈ D → k.reconcileCount ≤ cfg.reconcilerMaxAttempts

section
variable {cfg : Settings} {p : ConsumerId} {T : Time} {D : Finset MessageId} {s s' : World}
  {a : Action}

/-- The watched rows stay stale, received or decided. SOURCE: app/consumer/rabbitmq.py:205-261 -/
theorem Watched.step (hw : Watched cfg T D s) (hreach : Reachable (Program.step cfg) World.init s)
    (hinv : CycleInv cfg p s.intake) (hC : OneConsumer p s a)
    (hs : Program.step cfg s a = some s') : Watched cfg T D s' := by
  have hintake := intakeInv_of_reachable hreach
  have hkeys := keysStep_of_step hs
  -- The rows of `D` are rows of the old table.
  have hold : ∀ k' ∈ s'.intake.keys, k'.messageId ∈ D → ∃ k ∈ s.intake.keys,
      k.messageId ∈ D ∧ RowStep s.intake s'.intake a k k' := by
    intro k' hk' hD
    obtain ⟨k, hk, hrow⟩ | ⟨t, ev, receivedAt, seen, readAt, hh, rfl⟩ := hkeys.of_mem hk'
    · exact ⟨k, hk, hrow.messageId ▸ hD, hrow⟩
    · exact absurd (hw.recorded _ hD) (hintake.open_new t ev.messageId (by rw [hh]; rfl))
  refine ⟨fun m hm => hkeys.ids_subset (hw.recorded m hm), fun k' hk' hD => ?_,
    fun k' hk' hD => ?_⟩
  · obtain ⟨k, hk, hkD, hrow⟩ := hold k' hk' hD
    rw [hrow.receivedAt]
    exact hw.old k hk hkD
  · obtain ⟨k, hk, hkD, hrow⟩ := hold k' hk' hD
    exact count_le_of_rowStep hinv hintake.ids_nodup hC hk hrow (hw.capped k hk hkD)

/-- In a row of `D` the status alone says whether it is stale at a time from `T` on. -/
theorem Watched.stale_iff (hw : Watched cfg T D s) {t₀ : Time} (ht : T ≤ t₀)
    {k : IdempotencyKey} (hk : k ∈ s.intake.keys) (hD : k.messageId ∈ D) :
    isStale cfg t₀ k = true ↔ k.status = .received := by
  have hold := hw.old k hk hD
  simp only [isStale, Bool.and_eq_true, decide_eq_true_eq, and_iff_left_iff_imp]
  intro _
  exact hold.trans_le ht

/-- All that holds between the steps of a cycle that has picked `picks` from the state `s₀`. -/
structure InCycle (cfg : Settings) (p : ConsumerId) (T : Time) (D : Finset MessageId)
    (picks : List MessageId) (s₀ s : World) : Prop where
  reachable : Reachable (Program.step cfg) World.init s
  cycle : CycleInv cfg p s.intake
  watched : Watched cfg T D s
  picked : (s.intake.reconcilers p).dirty.map KeyWrite.messageId ++
    (s.intake.reconcilers p).todo.map IdempotencyKey.messageId = picks
  le : ∀ m ∈ D, weight cfg s m ≤ weight cfg s₀ m

/-- A cycle whose publishes succeed is one of the only consumer. -/
theorem oneConsumer_of_publishSucceeds (h : PublishSucceeds p a) : OneConsumer p s a := by
  obtain h | rfl | ⟨t, rfl⟩ := h
  · intro q hq
    rw [h] at hq
    cases hq
  · exact fun q hq => (Option.some.inj hq).symm
  · exact fun q hq => (Option.some.inj hq).symm

/-- A step inside a cycle is no commit of a reconciler. -/
theorem not_commit_of_publishSucceeds (h : PublishSucceeds p a) (q : ConsumerId) :
    a ≠ .reconciler q .commit := by
  rintro rfl
  obtain h | h | ⟨t, h⟩ := h <;> cases h

/-- A row that is done goes from what is to do to what has changed.
SOURCE: app/consumer/rabbitmq.py:221-259 -/
theorem picked_of_step (ha : PublishSucceeds p a) (hs : Program.step cfg s a = some s') :
    (s'.intake.reconcilers p).dirty.map KeyWrite.messageId ++
      (s'.intake.reconcilers p).todo.map IdempotencyKey.messageId =
    (s.intake.reconcilers p).dirty.map KeyWrite.messageId ++
      (s.intake.reconcilers p).todo.map IdempotencyKey.messageId := by
  obtain hkeep | ⟨b, i, rfl, rfl, h⟩ := reconciler_of_step hs p
  · rw [hkeep]
  · cases h with
    | abandon hc _ => simp [hc, Cycle.todo, Cycle.dirty, KeyWrite.messageId]
    | accepted hc _ _ => simp [hc, Cycle.todo, Cycle.dirty, KeyWrite.messageId]
    | stop _ hstop =>
      obtain h | h | ⟨t, h⟩ := ha
      · cases h
      · obtain rfl | rfl := hstop <;> cases h
      · obtain rfl | rfl := hstop <;> cases h
    | _ => obtain h | h | ⟨t, h⟩ := ha <;> cases h

/-- A step inside a cycle keeps what the cycle has picked, counted and left.
SOURCE: app/consumer/rabbitmq.py:219-254 -/
theorem InCycle.step {picks : List MessageId} {s₀ : World} (h : InCycle cfg p T D picks s₀ s)
    (ha : PublishSucceeds p a) (hs : Program.step cfg s a = some s') :
    InCycle cfg p T D picks s₀ s' := by
  have hC := oneConsumer_of_publishSucceeds (s := s) ha
  refine ⟨h.reachable.snoc hs, h.cycle.step hC hs, h.watched.step h.reachable h.cycle hC hs,
    (picked_of_step ha hs).trans h.picked, fun m hm => ?_⟩
  exact (weight_le_of_step h.reachable (h.watched.recorded m hm)
    (not_commit_of_publishSucceeds ha) hs).trans (h.le m hm)

/-- The SELECT of a cycle. SOURCE: app/consumer/rabbitmq.py:208-219 -/
theorem inCycle_of_select {t₀ : Time} {picks : List MessageId}
    (hreach : Reachable (Program.step cfg) World.init s) (hw : Watched cfg T D s)
    (hs : Program.step cfg s (.reconciler p (.select t₀ picks)) = some s') :
    InCycle cfg p T D picks s s' ∧ picks.Nodup ∧
      picks.length =
        min cfg.reconcilerBatchSize (s.intake.keys.countP (isStale cfg t₀)) ∧
      ∀ m ∈ picks, ∃ k ∈ s.intake.keys, k.messageId = m ∧ isStale cfg t₀ k = true := by
  have hC : OneConsumer p s (.reconciler p (.select t₀ picks)) :=
    fun q hq => (Option.some.inj hq).symm
  have hinv : CycleInv cfg p s.intake := .of_idle (idle_of_select hs)
  have hle : ∀ m ∈ D, weight cfg s' m ≤ weight cfg s m := fun m hm =>
    weight_le_of_step hreach (hw.recorded m hm) (fun _ h => by cases h) hs
  have hw' := hw.step hreach hinv hC hs
  have hinv' := hinv.step hC hs
  cases worldStep_of_eq_some hs with
  | reconciler h =>
    cases h with
    | select hc _ hn hl hp =>
      have hfound : ∀ m ∈ picks, ∃ k, lookup IdempotencyKey.messageId m s.intake.keys = some k ∧
          isStale cfg t₀ k = true := fun m hm => Option.map_eq_some_iff.1 (hp m hm)
      have hids : (picks.filterMap fun m => lookup IdempotencyKey.messageId m s.intake.keys).map
          IdempotencyKey.messageId = picks := by
        rw [map_key_lookup]
        refine List.filter_eq_self.2 fun m hm => ?_
        obtain ⟨k, hk, _⟩ := hfound m hm
        rw [hk, Option.isSome_some]
      refine ⟨⟨hreach.snoc hs, hinv', hw', ?_, hle⟩, hn, hl, fun m hm => ?_⟩
      · simp only [setCycle_self, Cycle.todo, Cycle.dirty]
        exact hids
      · obtain ⟨k, hk, hstale⟩ := hfound m hm
        obtain ⟨hmem, hid⟩ := of_lookup_eq_some hk
        exact ⟨k, hmem, hid, hstale⟩
    | stop _ ha => obtain ha | ha := ha <;> cases ha

/-- So does the whole part of the run inside the cycle. -/
theorem InCycle.run {picks : List MessageId} {s₀ : World} {as : List Action}
    (h : InCycle cfg p T D picks s₀ s) (has : ∀ a ∈ as, PublishSucceeds p a)
    (hrun : Computation.run (Program.step cfg) s as = some s') :
    InCycle cfg p T D picks s₀ s' := by
  induction as generalizing s with
  | nil =>
    cases hrun
    exact h
  | cons a as ih =>
    obtain ⟨m, ha, hrun⟩ := run_cons_eq_some.1 hrun
    exact ih (h.step (has a List.mem_cons_self) ha)
      (fun b hb => has b (List.mem_cons_of_mem _ hb)) hrun

/-- While no enrichment of a row in `D` is stored and no cycle is committed, every weight
stays as it is. -/
theorem weight_eq_of_run {as : List Action} (hreach : Reachable (Program.step cfg) World.init s)
    (hD : ∀ m ∈ D, m ∈ s.intake.ids) (has : ∀ a ∈ as, ∀ q, a ≠ .reconciler q .commit)
    (hstores : Meets (Program.step cfg) (StoresNothing D) s as)
    (hrun : Computation.run (Program.step cfg) s as = some s') :
    ∀ m ∈ D, weight cfg s' m = weight cfg s m := by
  induction as generalizing s with
  | nil =>
    cases hrun
    exact fun _ _ => rfl
  | cons a as ih =>
    obtain ⟨n, hs, hrun⟩ := run_cons_eq_some.1 hrun
    intro m hm
    have hrest := ih (hreach.snoc hs) (fun m hm => (keysStep_of_step hs).ids_subset (hD m hm))
      (fun b hb => has b (List.mem_cons_of_mem _ hb)) (hstores.2 n hs) hrun m hm
    rw [hrest]
    exact weight_eq_of_step hreach (hD m hm) (has a List.mem_cons_self) hs
      fun hmem => hstores.1 m hmem hm

/-- The rows that are stale when a cycle selects are the remaining ones. -/
theorem countP_stale (hw : Watched cfg T D s) {t₀ : Time} (hT : T ≤ t₀)
    (hstale : ∀ k ∈ s.intake.keys, isStale cfg t₀ k = true → k.messageId ∈ D) :
    s.intake.keys.countP (isStale cfg t₀) = (remaining D s).length := by
  rw [List.countP_eq_length_filter, remaining]
  refine congrArg List.length (List.filter_congr fun k hk => ?_)
  rw [Bool.eq_iff_iff, decide_eq_true_eq]
  constructor
  · intro h
    have hD := hstale k hk h
    exact ⟨hD, (hw.stale_iff hT hk hD).1 h⟩
  · rintro ⟨hD, hst⟩
    exact (hw.stale_iff hT hk hD).2 hst

/-- The commit of a cycle takes one off the weight of each row that was picked.
SOURCE: app/consumer/rabbitmq.py:223-261 -/
theorem InCycle.commit {picks : List MessageId} {s₀ : World} (h : InCycle cfg p T D picks s₀ s)
    (hs : Program.step cfg s (.reconciler p .commit) = some s') :
    Watched cfg T D s' ∧ s'.intake.reconcilers p = .idle ∧
      ∀ m ∈ D, weight cfg s' m = weight cfg s m - if m ∈ picks then 1 else 0 := by
  have hC : OneConsumer p s (.reconciler p .commit) := fun q hq => (Option.some.inj hq).symm
  obtain ⟨dirty, hc, hidle⟩ : ∃ dirty, s.intake.reconcilers p = .running [] dirty ∧
      s'.intake.reconcilers p = .idle := by
    cases worldStep_of_eq_some hs with
    | reconciler h =>
      cases h with
      | commit hc => exact ⟨_, hc, Function.update_self _ _ _⟩
      | stop _ ha => obtain ha | ha := ha <;> cases ha
  have hdirty : dirty.map KeyWrite.messageId = picks := by
    have hp := h.picked
    rw [hc] at hp
    simpa [Cycle.dirty, Cycle.todo] using hp
  refine ⟨h.watched.step h.reachable h.cycle hC hs, hidle, fun m hm => ?_⟩
  rw [← hdirty]
  exact weight_of_commit h.cycle h.reachable (h.watched.recorded m hm) hc hs

/-- A cycle is a round of the countdown. When no enrichment of a row in `D` is stored in it,
it takes one off each picked row and nothing else.
SOURCE: app/consumer/rabbitmq.py:205-261 -/
theorem Cycle.round {as : List Action} (h : Cycle cfg p T D s as s')
    (hreach : Reachable (Program.step cfg) World.init s) (hw : Watched cfg T D s) :
    Watched cfg T D s' ∧ s'.intake.reconcilers p = .idle ∧
      ∃ P, Round D cfg.reconcilerBatchSize P (weight cfg s) (weight cfg s') ∧
        (Meets (Program.step cfg) (StoresNothing D) s as →
          (∀ m ∈ P, weight cfg s' m + 1 = weight cfg s m) ∧
          ∀ m ∈ D, m ∉ P → weight cfg s' m = weight cfg s m) := by
  obtain ⟨⟨t₀, picks, mid, rfl, hT, hstale, hmid⟩, hrun⟩ := h
  obtain ⟨s₂, hrun₂, hcommit⟩ := run_append_eq_some.1 hrun
  rw [run_singleton] at hcommit
  obtain ⟨s₁, hselect, hrun₁⟩ := run_cons_eq_some.1 hrun₂
  obtain ⟨hin, hnodup, hlen, hpicked⟩ := inCycle_of_select hreach hw hselect
  have hin₂ := hin.run hmid hrun₁
  obtain ⟨hw', hidle, hafter⟩ := hin₂.commit hcommit
  have hids := ids_nodup_of_reachable hreach
  have hleft : picks.toFinset ⊆ left D (weight cfg s) := by
    intro m hm
    obtain ⟨k, hk, rfl, hst⟩ := hpicked m (List.mem_toFinset.1 hm)
    have hD := hstale k hk hst
    rw [left_eq_remaining hids hw.capped, List.mem_toFinset]
    exact List.mem_map_of_mem (mem_remaining.2 ⟨hk, hD, (hw.stale_iff hT hk hD).1 hst⟩)
  have hpos : ∀ m ∈ picks, m ∈ D ∧ 0 < weight cfg s m := fun m hm =>
    Finset.mem_filter.1 (hleft (List.mem_toFinset.2 hm))
  have hsame : Meets (Program.step cfg) (StoresNothing D) s
      (.reconciler p (.select t₀ picks) :: mid ++ [.reconciler p .commit]) →
      ∀ m ∈ D, weight cfg s₂ m = weight cfg s m := by
    intro hstores
    refine weight_eq_of_run hreach hw.recorded ?_ ((meets_snoc hrun₂).1 hstores).1 hrun₂
    intro a ha q
    obtain rfl | ha := List.mem_cons.1 ha
    · rintro ⟨⟩
    · exact not_commit_of_publishSucceeds (hmid a ha) q
  refine ⟨hw', hidle, picks.toFinset, ⟨hleft, ?_, fun m hm => ?_, fun m hm => ?_⟩,
    fun hstores => ⟨fun m hm => ?_, fun m hm hnot => ?_⟩⟩
  · rw [List.toFinset_card_of_nodup hnodup, hlen, countP_stale hw hT hstale,
      card_left hids hw.capped]
  · have hm := List.mem_toFinset.1 hm
    obtain ⟨hD, hlt⟩ := hpos m hm
    have hle := hin₂.le m hD
    rw [hafter m hD, if_pos hm]
    omega
  · have hle := hin₂.le m hm
    rw [hafter m hm]
    omega
  · have hm := List.mem_toFinset.1 hm
    obtain ⟨hD, hlt⟩ := hpos m hm
    rw [hafter m hD, if_pos hm, hsame hstores m hD]
    omega
  · rw [hafter m hm, if_neg fun h => hnot (List.mem_toFinset.2 h), Nat.sub_zero,
      hsame hstores m hm]

end

/-! ## Sequences of cycles -/

/-- `c` cycles of consumer `p` from `s₀`, and steps of the other parts between them. -/
inductive Reconciles (cfg : Settings) (p : ConsumerId) (T : Time) (D : Finset MessageId)
    (s₀ : World) : ℕ → World → Prop
  | start : Reconciles cfg p T D s₀ 0 s₀
  | other {c : ℕ} {s s' : World} {a : Action} (h : Reconciles cfg p T D s₀ c s)
      (ha : consumerOf a = none) (hs : step cfg s a = some s') : Reconciles cfg p T D s₀ c s'
  | cycle {c : ℕ} {s s' : World} {as : List Action} (h : Reconciles cfg p T D s₀ c s)
      (hc : Cycle cfg p T D s as s') : Reconciles cfg p T D s₀ (c + 1) s'

section
variable {cfg : Settings} {p : ConsumerId} {T : Time} {D : Finset MessageId} {s₀ s s' : World}
  {a : Action} {c : ℕ}

/-- A step that is none of a consumer is no commit of a reconciler. -/
theorem not_commit_of_consumerOf (ha : consumerOf a = none) (q : ConsumerId) :
    a ≠ .reconciler q .commit := by
  rintro rfl
  cases ha

/-- The sequence of cycles is a sequence of rounds of the countdown. -/
theorem Reconciles.rounds (h : Reconciles cfg p T D s₀ c s)
    (hreach : Reachable (step cfg) World.init s₀) (hidle : s₀.intake.reconcilers p = .idle)
    (hw : Watched cfg T D s₀) :
    Reachable (step cfg) World.init s ∧ s.intake.reconcilers p = .idle ∧ Watched cfg T D s ∧
      Rounds D cfg.reconcilerBatchSize (weight cfg s₀) c (weight cfg s) := by
  induction h with
  | start => exact ⟨hreach, hidle, hw, .start⟩
  | @other c s s' a _ ha hs ih =>
    obtain ⟨hreach, hidle, hw, hrounds⟩ := ih
    have hC : OneConsumer p s a := by
      intro q hq
      rw [ha] at hq
      cases hq
    refine ⟨hreach.snoc hs, ?_, hw.step hreach (.of_idle hidle) hC hs,
      hrounds.fall fun m hm => ?_⟩
    · obtain hkeep | ⟨b, i, rfl, _, _⟩ := reconciler_of_step hs p
      · rw [hkeep, hidle]
      · cases ha
    · exact weight_le_of_step hreach (hw.recorded m hm) (not_commit_of_consumerOf ha) hs
  | @cycle c s s' as _ hc ih =>
    obtain ⟨hreach, hidle, hw, hrounds⟩ := ih
    obtain ⟨hw', hidle', P, hround, _⟩ := hc.round hreach hw
    exact ⟨hreach.trans ⟨as, hc.run⟩, hidle', hw', hrounds.round hround⟩

end

/-! ## The result -/

/-- How the measure goes down from `s₀` on, and when the last row of `D` has left `received`. -/
structure ReconciliationEnds (cfg : Settings) (p : ConsumerId) (T : Time) (D : Finset MessageId)
    (s₀ : World) : Prop where
  /-- a cycle lowers the measure by its batch at least, and by no more when no enrichment of
  these rows is stored in it -/
  lowers : ∀ c s as s', Reconciles cfg p T D s₀ c s → Cycle cfg p T D s as s' →
    mu cfg D s' + min cfg.reconcilerBatchSize (remaining D s).length ≤ mu cfg D s ∧
    (Meets (step cfg) (StoresNothing D) s as →
      mu cfg D s' + min cfg.reconcilerBatchSize (remaining D s).length = mu cfg D s)
  /-- nothing but a cycle writes the counts, so the copies raise nothing -/
  others : ∀ s a s', Reachable (step cfg) s₀ s → consumerOf a = none →
    step cfg s a = some s' → mu cfg D s' ≤ mu cfg D s
  ends : ∀ c s, Reconciles cfg p T D s₀ c s →
    mu cfg D s₀ / cfg.reconcilerBatchSize + cfg.reconcilerMaxAttempts + 1 ≤ c →
    remaining D s = []

/-- Rows that are stale at time `T` with counts up to the cap can be watched. -/
theorem watched_of_stale {cfg : Settings} {T : Time} {D : Finset MessageId} {s : World}
    (hids : s.intake.ids.Nodup) (hD : ∀ m ∈ D, ∃ k ∈ s.intake.keys, k.messageId = m ∧
      isStale cfg T k = true ∧ k.reconcileCount ≤ cfg.reconcilerMaxAttempts) :
    Watched cfg T D s := by
  have hrow : ∀ k ∈ s.intake.keys, k.messageId ∈ D →
      isStale cfg T k = true ∧ k.reconcileCount ≤ cfg.reconcilerMaxAttempts := by
    intro k hk hkD
    obtain ⟨k', hk', hid, h⟩ := hD _ hkD
    rwa [eq_of_key_eq hids hk' hk hid] at h
  refine ⟨fun m hm => ?_, fun k hk hkD => ?_, fun k hk hkD => (hrow k hk hkD).2⟩
  · obtain ⟨k, hk, rfl, _⟩ := hD m hm
    exact List.mem_map_of_mem hk
  · have hstale := (hrow k hk hkD).1
    simp only [isStale, Bool.and_eq_true, decide_eq_true_eq] at hstale
    exact hstale.2

/-- A watched row weighs at most one cap and one. -/
theorem Watched.weight_le {cfg : Settings} {T : Time} {D : Finset MessageId} {s : World}
    (hw : Watched cfg T D s) (hids : s.intake.ids.Nodup) {m : MessageId} (hm : m ∈ D) :
    weight cfg s m ≤ cfg.reconcilerMaxAttempts + 1 := by
  obtain ⟨k, hk, rfl⟩ := List.mem_map.1 (hw.recorded m hm)
  rw [weight_of_mem hids hk, rowWeight]
  split <;> omega

/-- Reconciliation of the rows `D`, stale at time `T` with counts up to the cap, ends within
the bound, whichever rows the SELECTs return.
SOURCE: app/consumer/rabbitmq.py:131-138,200-261, app/config.py:33-37 -/
theorem reconciliation_ends (cfg : Settings) (p : ConsumerId) (T : Time) (D : Finset MessageId)
    (s₀ : World) (hB : 1 ≤ cfg.reconcilerBatchSize)
    (hreach : Reachable (step cfg) World.init s₀) (hidle : s₀.intake.reconcilers p = .idle)
    (hD : ∀ m ∈ D, ∃ k ∈ s₀.intake.keys, k.messageId = m ∧ isStale cfg T k = true ∧
      k.reconcileCount ≤ cfg.reconcilerMaxAttempts) :
    ReconciliationEnds cfg p T D s₀ := by
  have hids := ids_nodup_of_reachable hreach
  have hw : Watched cfg T D s₀ := watched_of_stale hids hD
  constructor
  · intro c s as s' hrec hcycle
    obtain ⟨hreach, _, hw, _⟩ := hrec.rounds hreach hidle hw
    obtain ⟨_, _, P, hround, hexact⟩ := hcycle.round hreach hw
    have hids := ids_nodup_of_reachable hreach
    have hids' := ids_nodup_of_reachable (hreach.trans ⟨as, hcycle.run⟩)
    rw [mu_eq_total hids, mu_eq_total hids', ← card_left hids hw.capped]
    refine ⟨hround.total_le, fun hstores => ?_⟩
    obtain ⟨hpicked, hothers⟩ := hexact hstores
    exact hround.total_eq hpicked hothers
  · intro s a s' hs₀ ha hs
    have hreach := hreach.trans hs₀
    have hids := ids_nodup_of_reachable hreach
    have hids' := ids_nodup_of_reachable (hreach.snoc hs)
    have hrecorded : ∀ m ∈ D, m ∈ s.intake.ids := by
      refine hs₀.induct (I := fun s => ∀ m ∈ D, m ∈ s.intake.ids) hw.recorded ?_
      exact fun m a m' _ ih hs i hi => (keysStep_of_step hs).ids_subset (ih i hi)
    rw [mu_eq_total hids, mu_eq_total hids']
    exact total_mono fun m hm =>
      weight_le_of_step hreach (hrecorded m hm) (not_commit_of_consumerOf ha) hs
  · intro c s hrec hc
    obtain ⟨hreach, _, hw', hrounds⟩ := hrec.rounds hreach hidle hw
    have hids' := ids_nodup_of_reachable hreach
    rw [mu_eq_total hids] at hc
    have hzero := eq_zero_of_rounds hB (fun m hm => hw.weight_le hids hm) hrounds hc
    have hleft : (left D (weight cfg s)).card = 0 := by
      refine Finset.card_eq_zero.2 (Finset.filter_eq_empty_iff.2 fun m hm => ?_)
      rw [hzero m hm]
      exact lt_irrefl 0
    rw [card_left hids' hw'.capped] at hleft
    exact List.eq_nil_of_length_eq_zero hleft

/-! ## A concrete history -/

theorem stuckInReceived_enabled :
    (run (step .default) World.init stuckInReceived).isSome = true := by decide

/-- One event is stale, and no cycle is running. -/
def oneStale : World := (run (step .default) World.init stuckInReceived).get stuckInReceived_enabled

theorem republishCycle_enabled :
    (run (step .default) oneStale (republishCycle 0 (minutes 5 + 1) (py "m") 1)).isSome = true := by
  decide

/-- One stale event, which a cycle re-enqueues. -/
theorem reconciliation_ends_oneStale :
    ReconciliationEnds .default 0 (minutes 5 + 1) {py "m"} oneStale ∧
      ∃ s, Cycle .default 0 (minutes 5 + 1) {py "m"} oneStale
        (republishCycle 0 (minutes 5 + 1) (py "m") 1) s := by
  constructor
  · refine reconciliation_ends .default 0 (minutes 5 + 1) {py "m"} oneStale (by decide)
      (Reachable.of_run stuckInReceived_enabled) rfl fun m hm => ?_
    rw [Finset.mem_singleton.1 hm]
    exact ⟨_, List.mem_cons_self, rfl, by decide, by decide⟩
  · refine ⟨_, ⟨minutes 5 + 1, [py "m"], [.reconciler 0 (.publish (.accepted 1))], rfl, le_refl _,
      by decide, fun a ha => ?_⟩, (Option.some_get republishCycle_enabled).symm⟩
    exact Or.inr (Or.inr ⟨1, List.mem_singleton.1 ha⟩)

end EventPipeline.Analysis

import EventPipeline.Analysis.IntakeInvariant
import EventPipeline.Interface.KeyRows

/-!
# The cap on re-enqueued copies

The exchange accepts a copy at once; the count is committed at the end of the cycle. In a
run of one consumer in which no cycle that had a copy accepted is rolled back, the copies
accepted of a message are at most its count, as the database has it or as the running cycle
will commit it, and a copy is published only below the cap.
-/

set_option autoImplicit false

namespace EventPipeline.Analysis

open EventPipeline.Model EventPipeline.Program EventPipeline.Interface EventPipeline.Computation

/-! ## The condition -/

def consumerOf : Action → Option ConsumerId
  | .reconciler p _ => some p
  | _ => none

/-- The counts that an action rolls back although the exchange has accepted the copies: those
of the cycle that it ends by an exception, and that of the copy it fails on.
SOURCE: app/consumer/rabbitmq.py:244-265 -/
def lostCounts (s : Intake) : Action → List MessageId
  | .reconciler p .fail | .reconciler p .crash | .reconciler p (.publish (.error none)) =>
    (s.reconcilers p).dirty.filterMap KeyWrite.countedId
  | .reconciler p (.publish (.error (some _))) =>
    (s.reconcilers p).todo.map IdempotencyKey.messageId
  | _ => []

def OneConsumer (p : ConsumerId) (_ : World) (a : Action) : Prop := ∀ q ∈ consumerOf a, q = p

instance (p : ConsumerId) (s : World) (a : Action) : Decidable (OneConsumer p s a) :=
  inferInstanceAs (Decidable (∀ q ∈ consumerOf a, q = p))

/-- Only consumer `p` reconciles, and no count of an accepted copy is rolled back. -/
def CountsKept (p : ConsumerId) (s : World) (a : Action) : Prop :=
  OneConsumer p s a ∧ lostCounts s.intake a = []

instance (p : ConsumerId) (s : World) (a : Action) : Decidable (CountsKept p s a) :=
  inferInstanceAs (Decidable (_ ∧ _))

/-! ## The invariant -/

def Counts (keys : List IdempotencyKey) (m : MessageId) (n : ℕ) : Prop :=
  ∃ k ∈ keys, k.messageId = m ∧ k.reconcileCount = n

/-- The invariant of consumer `p`. The counts are those that the running cycle would commit. -/
structure CapInv (cfg : Settings) (p : ConsumerId) (s : Intake) : Prop where
  counted : ∀ m ∈ s.reEnqueued, ∃ n,
    Counts (flushWrites (s.reconcilers p).dirty s.keys) m n ∧ s.reEnqueued.count m ≤ n
  capped : ∀ m, s.reEnqueued.count m ≤ cfg.reconcilerMaxAttempts
  todo : ∀ ik ∈ (s.reconcilers p).todo,
    Counts (flushWrites (s.reconcilers p).dirty s.keys) ik.messageId ik.reconcileCount
  todo_nodup : ((s.reconcilers p).todo.map IdempotencyKey.messageId).Nodup

section
variable {keys : List IdempotencyKey} {dirty : List KeyWrite} {m : MessageId} {n : ℕ}

/-- A message has one count. -/
theorem Counts.unique (hn : (keys.map IdempotencyKey.messageId).Nodup) {n' : ℕ}
    (h : Counts keys m n) (h' : Counts keys m n') : n = n' := by
  obtain ⟨k, hk, hid, rfl⟩ := h
  obtain ⟨k', hk', hid', rfl⟩ := h'
  rw [eq_of_key_eq hn hk hk' (hid.trans hid'.symm)]

/-- The count that a flush will leave is that of the row with the writes applied. -/
theorem counts_flushWrites_iff : Counts (flushWrites dirty keys) m n ↔
    ∃ k ∈ keys, k.messageId = m ∧ (flushRow dirty k).reconcileCount = n := by
  unfold Counts
  rw [flushWrites_eq_map]
  simp only [List.mem_map]
  constructor
  · rintro ⟨_, ⟨k, hk, rfl⟩, hid, hcount⟩
    exact ⟨k, hk, (flushRow_messageId dirty k).symm.trans hid, hcount⟩
  · rintro ⟨k, hk, hid, hcount⟩
    exact ⟨_, ⟨k, hk, rfl⟩, (flushRow_messageId dirty k).trans hid, hcount⟩

/-- Abandoning another event, or this one, does not change a count. -/
theorem counts_abandon {m' : MessageId} {e : PyStr} (h : Counts (flushWrites dirty keys) m n) :
    Counts (flushWrites (dirty ++ [.abandoned m' e]) keys) m n := by
  rw [counts_flushWrites_iff] at h ⊢
  obtain ⟨k, hk, hid, hcount⟩ := h
  refine ⟨k, hk, hid, ?_⟩
  rw [flushRow_append, ← hcount]
  simp only [KeyWrite.apply]
  split <;> rfl

/-- Counting one message keeps the counts of the others. SOURCE: app/consumer/rabbitmq.py:254 -/
theorem counts_count_of_ne {m' : MessageId} {n' : ℕ} (hne : m ≠ m')
    (h : Counts (flushWrites dirty keys) m n) :
    Counts (flushWrites (dirty ++ [.counted m' n']) keys) m n := by
  rw [counts_flushWrites_iff] at h ⊢
  obtain ⟨k, hk, hid, hcount⟩ := h
  refine ⟨k, hk, hid, ?_⟩
  have hk' : (flushRow dirty k).messageId ≠ m' := by
    rw [flushRow_messageId, hid]
    exact hne
  rw [flushRow_append, ← hcount]
  simp only [KeyWrite.apply, if_neg hk']

/-- A message that is counted has the new count. SOURCE: app/consumer/rabbitmq.py:254 -/
theorem counts_count_self {n' : ℕ} (h : Counts (flushWrites dirty keys) m n) :
    Counts (flushWrites (dirty ++ [.counted m n']) keys) m n' := by
  rw [counts_flushWrites_iff] at h ⊢
  obtain ⟨k, hk, hid, _⟩ := h
  refine ⟨k, hk, hid, ?_⟩
  have hk' : (flushRow dirty k).messageId = m := (flushRow_messageId dirty k).trans hid
  rw [flushRow_append]
  simp only [KeyWrite.apply, if_pos hk']

/-- A rollback of abandonments only does not change a count. -/
theorem counts_rollback (hdirty : ∀ m n, KeyWrite.counted m n ∉ dirty)
    (h : Counts (flushWrites dirty keys) m n) : Counts keys m n := by
  rw [counts_flushWrites_iff] at h
  obtain ⟨k, hk, hid, hcount⟩ := h
  exact ⟨k, hk, hid, (flushRow_reconcileCount_of_abandoned dirty k hdirty).symm.trans hcount⟩

/-- The steps outside the reconciler leave every count alone. -/
theorem counts_keysStep {s s' : Intake} {a : Action} (hs : KeysStep s a s')
    (ha : consumerOf a = none) (h : Counts (flushWrites dirty s.keys) m n) :
    Counts (flushWrites dirty s'.keys) m n := by
  rw [counts_flushWrites_iff] at h ⊢
  obtain ⟨k, hk, hid, hcount⟩ := h
  obtain ⟨k', hk', hrow⟩ := hs.exists_row hk
  have hsame : k'.reconcileCount = k.reconcileCount := by
    cases hrow with
    | flush _ => cases ha
    | _ => rfl
  exact ⟨k', hk', hrow.messageId.trans hid,
    (flushRow_reconcileCount_congr dirty hrow.messageId hsame).trans hcount⟩

end

/-! ## Every step keeps the invariant -/

section
variable {cfg : Settings} {p : ConsumerId} {s s' : Intake}

/-- A cycle that has counted nothing may be rolled back. SOURCE: app/consumer/rabbitmq.py:261-265 -/
theorem CapInv.rollback (hinv : CapInv cfg p s)
    (hdirty : ∀ m n, KeyWrite.counted m n ∉ (s.reconcilers p).dirty) :
    CapInv cfg p (setCycle s p .idle) := by
  refine ⟨fun m hm => ?_, hinv.capped, ?_, ?_⟩
  · obtain ⟨n, hn, hle⟩ := hinv.counted m hm
    rw [setCycle_self]
    exact ⟨n, counts_rollback hdirty hn, hle⟩
  · rw [setCycle_self]
    nofun
  · rw [setCycle_self]
    exact List.nodup_nil

/-- The loaded rows are those of the table, each once. -/
theorem CapInv.select (hinv : CapInv cfg p s) {picks : List MessageId}
    (hc : s.reconcilers p = .idle) (hn : picks.Nodup) :
    CapInv cfg p (setCycle s p
      (.running (picks.filterMap fun m => lookup IdempotencyKey.messageId m s.keys) [])) := by
  refine ⟨fun m hm => ?_, hinv.capped, ?_, ?_⟩
  · obtain ⟨n, hn, hle⟩ := hinv.counted m hm
    rw [hc] at hn
    rw [setCycle_self]
    exact ⟨n, hn, hle⟩
  · rw [setCycle_self]
    intro ik hik
    obtain ⟨m, _, hlook⟩ := List.mem_filterMap.1 hik
    exact ⟨ik, (of_lookup_eq_some hlook).1, rfl, rfl⟩
  · rw [setCycle_self]
    show ((picks.filterMap _).map _).Nodup
    rw [map_key_lookup]
    exact hn.filter _

/-- The next row is done without a copy: it is abandoned, or its publish timed out. -/
theorem CapInv.skip (hinv : CapInv cfg p s) {ik : IdempotencyKey} {todo : List IdempotencyKey}
    {dirty dirty' : List KeyWrite} (hc : s.reconcilers p = .running (ik :: todo) dirty)
    (hkeep : ∀ m n, Counts (flushWrites dirty s.keys) m n →
      Counts (flushWrites dirty' s.keys) m n) :
    CapInv cfg p (setCycle s p (.running todo dirty')) := by
  obtain ⟨hcounted, hcapped, htodo, hnodup⟩ := hinv
  rw [hc] at hcounted htodo hnodup
  refine ⟨fun m hm => ?_, hcapped, ?_, ?_⟩
  · obtain ⟨n, hn, hle⟩ := hcounted m hm
    rw [setCycle_self]
    exact ⟨n, hkeep m n hn, hle⟩
  · rw [setCycle_self]
    exact fun ik' hik' => hkeep _ _ (htodo ik' (List.mem_cons_of_mem _ hik'))
  · rw [setCycle_self]
    exact (List.nodup_cons.1 hnodup).2

/-- So far at most as many copies were accepted as the count of the row says. -/
theorem CapInv.count_le (hinv : CapInv cfg p s) (hids : s.ids.Nodup) {dirty : List KeyWrite}
    {todo : List IdempotencyKey} (hc : s.reconcilers p = .running todo dirty) {m : MessageId} {n : ℕ}
    (hm : Counts (flushWrites dirty s.keys) m n) : s.reEnqueued.count m ≤ n := by
  have hids' : ((flushWrites dirty s.keys).map IdempotencyKey.messageId).Nodup := by
    rw [ids_flushWrites]
    exact hids
  by_cases hmem : m ∈ s.reEnqueued
  · have hcounted := hinv.counted m hmem
    rw [hc] at hcounted
    obtain ⟨n', hn', hle⟩ := hcounted
    rwa [Counts.unique hids' hm hn']
  · rw [List.count_eq_zero_of_not_mem hmem]
    exact Nat.zero_le _

/-- The exchange accepts a copy of the next row, whose count is below the cap.
SOURCE: app/consumer/rabbitmq.py:223,244-254 -/
theorem CapInv.accepted (hinv : CapInv cfg p s) (hids : s.ids.Nodup) {ik : IdempotencyKey}
    {todo : List IdempotencyKey} {dirty : List KeyWrite} {t : Tag}
    (hc : s.reconcilers p = .running (ik :: todo) dirty)
    (hcap : ik.reconcileCount < cfg.reconcilerMaxAttempts) :
    CapInv cfg p (setCycle (enqueueCopy s ik t) p
      (.running todo (dirty ++ [.counted ik.messageId (ik.reconcileCount + 1)]))) := by
  have hcount_le := fun m n => hinv.count_le hids hc (m := m) (n := n)
  obtain ⟨hcounted, hcapped, htodo, hnodup⟩ := hinv
  rw [hc] at hcounted htodo hnodup
  have hself := htodo ik List.mem_cons_self
  have hle : s.reEnqueued.count ik.messageId ≤ ik.reconcileCount := hcount_le _ _ hself
  have hcount : ∀ m, (s.reEnqueued ++ [ik.messageId]).count m =
      s.reEnqueued.count m + if ik.messageId = m then 1 else 0 := by
    intro m
    rw [List.count_append, List.count_singleton]
    simp only [beq_iff_eq]
  refine ⟨fun m hm => ?_, fun m => ?_, ?_, ?_⟩
  · rw [setCycle_self]
    show ∃ n, Counts
        (flushWrites (dirty ++ [.counted ik.messageId (ik.reconcileCount + 1)]) s.keys) m n ∧
      (s.reEnqueued ++ [ik.messageId]).count m ≤ n
    rw [hcount]
    by_cases heq : ik.messageId = m
    · subst heq
      exact ⟨_, counts_count_self hself, by rw [if_pos rfl]; omega⟩
    · have hmem : m ∈ s.reEnqueued := by
        obtain hmem | hmem := List.mem_append.1 hm
        · exact hmem
        · exact absurd (List.mem_singleton.1 hmem).symm heq
      obtain ⟨n, hn, hle'⟩ := hcounted m hmem
      refine ⟨n, counts_count_of_ne (Ne.symm heq) hn, ?_⟩
      rw [if_neg heq]
      exact hle'
  · show (s.reEnqueued ++ [ik.messageId]).count m ≤ _
    rw [hcount]
    have hm := hcapped m
    split
    · rename_i heq
      subst heq
      omega
    · exact hm
  · rw [setCycle_self]
    intro ik' hik'
    have hne : ik'.messageId ≠ ik.messageId := fun heq =>
      (List.nodup_cons.1 hnodup).1 (heq ▸ List.mem_map_of_mem hik')
    exact counts_count_of_ne hne (htodo ik' (List.mem_cons_of_mem _ hik'))
  · rw [setCycle_self]
    exact (List.nodup_cons.1 hnodup).2

/-- The cycle commits what it has counted. SOURCE: app/consumer/rabbitmq.py:261 -/
theorem CapInv.commit (hinv : CapInv cfg p s) {dirty : List KeyWrite}
    (hc : s.reconcilers p = .running [] dirty) :
    CapInv cfg p (setCycle { s with keys := flushWrites dirty s.keys } p .idle) := by
  refine ⟨fun m hm => ?_, hinv.capped, ?_, ?_⟩
  · obtain ⟨n, hn, hle⟩ := hinv.counted m hm
    rw [hc] at hn
    rw [setCycle_self]
    exact ⟨n, hn, hle⟩
  · rw [setCycle_self]
    nofun
  · rw [setCycle_self]
    exact List.nodup_nil

/-- A reconciler step of the consumer. SOURCE: app/consumer/rabbitmq.py:200-265 -/
theorem CapInv.reconciler {now : Time} {a : ReconcilerAction} (hinv : CapInv cfg p s)
    (hids : s.ids.Nodup) (hlost : lostCounts s (.reconciler p a) = [])
    (hstep : ReconcilerStep cfg now s p a s') : CapInv cfg p s' := by
  have hnone : ∀ dirty : List KeyWrite, dirty.filterMap KeyWrite.countedId = [] →
      ∀ m n, KeyWrite.counted m n ∉ dirty := by
    intro dirty hnil m n hmem
    have hin : m ∈ dirty.filterMap KeyWrite.countedId := List.mem_filterMap.2 ⟨_, hmem, rfl⟩
    rw [hnil] at hin
    cases hin
  cases hstep with
  | select hc _ hn _ _ => exact hinv.select hc hn
  | abandon hc _ => exact hinv.skip hc fun m n h => counts_abandon h
  | accepted hc hcap _ => exact hinv.accepted hids hc hcap
  | timeout hc _ => exact hinv.skip hc fun m n h => h
  | error hc _ => exact hinv.rollback (hnone _ hlost)
  | errorAccepted hc _ _ =>
    -- The copy that fails is the next row's, so its count would be lost.
    simp only [lostCounts, hc, Cycle.todo, List.map_cons, reduceCtorEq] at hlost
  | commit hc => exact hinv.commit hc
  | stop hc ha =>
    obtain rfl | rfl := ha
    · exact hinv.rollback (hnone _ hlost)
    · exact hinv.rollback (hnone _ hlost)

/-- The steps of other processes keep the bound. -/
theorem CapInv.other {a : Action} (hinv : CapInv cfg p s) (hs : KeysStep s a s')
    (ha : consumerOf a = none) (hr : s'.reconcilers = s.reconcilers)
    (he : s'.reEnqueued = s.reEnqueued) : CapInv cfg p s' := by
  obtain ⟨hcounted, hcapped, htodo, hnodup⟩ := hinv
  refine ⟨fun m hm => ?_, fun m => he ▸ hcapped m, fun ik hik => ?_, hr ▸ hnodup⟩
  · rw [he] at hm
    obtain ⟨n, hn, hle⟩ := hcounted m hm
    rw [hr, he]
    exact ⟨n, counts_keysStep hs ha hn, hle⟩
  · rw [hr] at hik ⊢
    exact counts_keysStep hs ha (htodo ik hik)

end

/-- In a run that keeps its counts the bound holds in every state. -/
theorem capInv_of_reachableIf {cfg : Settings} {p : ConsumerId} {s : World}
    (h : ReachableIf (step cfg) (CountsKept p) World.init s) : CapInv cfg p s.intake := by
  refine h.induct (I := fun s => CapInv cfg p s.intake) ?_ ?_
  · exact ⟨nofun, fun _ => Nat.zero_le _, nofun, List.nodup_nil⟩
  · intro s a s' hreach hinv hC hs
    have hkeys := keysStep_of_step hs
    cases worldStep_of_eq_some hs with
    | handler hstep =>
      obtain ⟨hcycles, hlist⟩ := hstep.cycles
      exact hinv.other hkeys rfl hcycles hlist
    | reconciler hstep =>
      obtain rfl := hC.1 _ rfl
      exact hinv.reconciler (ids_nodup_of_reachable hreach.reachable) hC.2 hstep
    | publish _ => exact hinv.other hkeys rfl rfl rfl
    | _ => exact hinv

/-! ## The result -/

/-- In a run of one consumer that rolls back no count of an accepted copy, the exchange
accepts at most `reconciler_max_attempts` copies of a message from the reconciler.
SOURCE: app/consumer/rabbitmq.py:200-265 -/
theorem reEnqueued_le_cap (cfg : Settings) (p : ConsumerId) (s : World) (m : MessageId)
    (h : ReachableIf (step cfg) (CountsKept p) World.init s) :
    s.intake.reEnqueued.count m ≤ cfg.reconcilerMaxAttempts :=
  (capInv_of_reachableIf h).capped m

/-! ## Concrete histories -/

def stuckInReceived : List Action :=
  [.publish 0 (eventBody (py "m") (py "e") (.obj []))] ++ acceptance 0 ⟨1⟩ [] ++
  [.handler 0 (.enrich .transient), .tick (minutes 5 + 1)]

/-- A cycle that has a copy of `m` accepted and whose commit then fails. -/
def failingCycle (p : ConsumerId) (t₀ : Time) (m : MessageId) (t : Tag) : List Action :=
  [.select t₀ [m], .publish (.accepted t), .fail].map (.reconciler p)

def twoCycles : List Action :=
  stuckInReceived ++ republishCycle 0 (minutes 5 + 1) (py "m") 1 ++
    republishCycle 0 (minutes 5 + 1) (py "m") 2

theorem twoCycles_enabled : (run (step .default) World.init twoCycles).isSome = true := by decide

/-- Both copies count against the cap. SOURCE: app/consumer/rabbitmq.py:220-261 -/
theorem reEnqueued_le_cap_twoCycles :
    ((run (step .default) World.init twoCycles).get twoCycles_enabled).intake.reEnqueued.count
      (py "m") ≤ 10 :=
  reEnqueued_le_cap .default 0 _ (py "m") (ReachableIf.of_run twoCycles_enabled (by decide))

def elevenFailures : List Action :=
  stuckInReceived ++
    (List.range 11).flatMap fun i => failingCycle 0 (minutes 5 + 1) (py "m") (i + 1)

set_option maxRecDepth 4000 in
theorem elevenFailures_enabled :
    (run (step .default) World.init elevenFailures).isSome = true := by decide

set_option maxRecDepth 4000 in
/-- The count is lost with the transaction, but the copies are in the queue.
SOURCE: app/consumer/rabbitmq.py:244-265 -/
theorem reEnqueued_over_cap :
    ¬ ∀ (s : World) (m : MessageId), ReachableIf (step .default) (OneConsumer 0) World.init s →
      s.intake.reEnqueued.count m ≤ Settings.default.reconcilerMaxAttempts := by
  intro h
  have hle := h _ (py "m") (ReachableIf.of_run elevenFailures_enabled (by decide))
  exact absurd hle (by decide)

end EventPipeline.Analysis

import EventPipeline.Analysis.ReEnqueueCap
import EventPipeline.Computation.History

/-!
# The bookkeeping of the reconciler

A cycle works on copies of the rows that it has loaded and writes them back at its commit.
With one reconciler no other cycle changes a count in between, and the calls that write the
same rows write other columns. So the counts of the loaded copies are those of the table,
each loaded row is changed at most once, and the commit raises a count by one or leaves a
row that is at the cap as failed.
-/

set_option autoImplicit false

namespace EventPipeline.Analysis

open EventPipeline.Model EventPipeline.Program EventPipeline.Interface EventPipeline.Computation

/-! ## The loaded copies of a cycle -/

/-- A change that a cycle has made is right for the row as the table has it: an abandoned row
is at the cap, a counted row is counted once more, up to the cap.
SOURCE: app/consumer/rabbitmq.py:223-254 -/
def Fits (cfg : Settings) (keys : List IdempotencyKey) : KeyWrite → Prop
  | .abandoned m _ => ∃ n, cfg.reconcilerMaxAttempts ≤ n ∧ Counts keys m n
  | .counted m n => ∃ n', n = n' + 1 ∧ n' < cfg.reconcilerMaxAttempts ∧ Counts keys m n'

/-- The invariant of the running cycle of consumer `p`. -/
structure CycleInv (cfg : Settings) (p : ConsumerId) (s : Intake) : Prop where
  todo : ∀ ik ∈ (s.reconcilers p).todo, Counts s.keys ik.messageId ik.reconcileCount
  dirty : ∀ w ∈ (s.reconcilers p).dirty, Fits cfg s.keys w
  nodup : ((s.reconcilers p).dirty.map KeyWrite.messageId ++
    (s.reconcilers p).todo.map IdempotencyKey.messageId).Nodup

section
variable {cfg : Settings} {p : ConsumerId} {s s' : Intake}

/-- Between two cycles there is nothing to keep. -/
theorem CycleInv.of_idle (h : s.reconcilers p = .idle) : CycleInv cfg p s := by
  constructor <;> rw [h]
  · exact nofun
  · exact nofun
  · exact List.nodup_nil

/-- A change fits as long as no count goes away. -/
theorem Fits.mono {keys keys' : List IdempotencyKey} {w : KeyWrite} (h : Fits cfg keys w)
    (hcounts : ∀ m n, Counts keys m n → Counts keys' m n) : Fits cfg keys' w := by
  cases w with
  | abandoned m e =>
    obtain ⟨n, hle, hn⟩ := h
    exact ⟨n, hle, hcounts _ _ hn⟩
  | counted m n =>
    obtain ⟨n', heq, hlt, hn⟩ := h
    exact ⟨n', heq, hlt, hcounts _ _ hn⟩

/-- Steps that leave the cycle alone. -/
theorem CycleInv.other (hinv : CycleInv cfg p s) {a : Action} (hs : KeysStep s a s')
    (ha : consumerOf a = none) (hr : s'.reconcilers p = s.reconcilers p) : CycleInv cfg p s' := by
  have hcounts : ∀ m n, Counts s.keys m n → Counts s'.keys m n := by
    intro m n h
    show Counts (flushWrites [] s'.keys) m n
    exact counts_keysStep hs ha h
  refine ⟨fun ik hik => ?_, fun w hw => ?_, by rw [hr]; exact hinv.nodup⟩
  · rw [hr] at hik
    exact hcounts _ _ (hinv.todo ik hik)
  · rw [hr] at hw
    exact (hinv.dirty w hw).mono hcounts

/-- The SELECT loads rows of the table, each once. SOURCE: app/consumer/rabbitmq.py:208-219 -/
theorem CycleInv.select {picks : List MessageId} (hn : picks.Nodup) :
    CycleInv cfg p (setCycle s p
      (.running (picks.filterMap fun m => lookup IdempotencyKey.messageId m s.keys) [])) := by
  constructor <;> rw [setCycle_self]
  · intro ik hik
    obtain ⟨m, _, hlook⟩ := List.mem_filterMap.1 hik
    exact ⟨ik, (of_lookup_eq_some hlook).1, rfl, rfl⟩
  · exact nofun
  · show ((picks.filterMap _).map _).Nodup
    rw [map_key_lookup]
    exact hn.filter _

/-- The next row of the cycle is done, and `w` is what has changed of it. -/
theorem CycleInv.next (hinv : CycleInv cfg p s) {ik : IdempotencyKey} {todo : List IdempotencyKey}
    {dirty : List KeyWrite} {w : KeyWrite} (hc : s.reconcilers p = .running (ik :: todo) dirty)
    (hkeys : s'.keys = s.keys) (hid : w.messageId = ik.messageId) (hw : Fits cfg s.keys w)
    (hc' : s'.reconcilers p = .running todo (dirty ++ [w])) : CycleInv cfg p s' := by
  obtain ⟨htodo, hdirty, hnodup⟩ := hinv
  rw [hc] at htodo hdirty hnodup
  constructor <;> rw [hc']
  · intro ik' hik'
    rw [hkeys]
    exact htodo ik' (List.mem_cons_of_mem _ hik')
  · intro w' hw'
    rw [hkeys]
    obtain hw' | hw' := List.mem_append.1 hw'
    · exact hdirty w' hw'
    · rwa [List.mem_singleton.1 hw']
  · have hlist : (dirty ++ [w]).map KeyWrite.messageId ++ todo.map IdempotencyKey.messageId =
        dirty.map KeyWrite.messageId ++ (ik :: todo).map IdempotencyKey.messageId := by
      simp [hid]
    exact hlist ▸ hnodup

/-- The publish of the next row timed out. SOURCE: app/consumer/rabbitmq.py:250-252 -/
theorem CycleInv.skip (hinv : CycleInv cfg p s) {ik : IdempotencyKey} {todo : List IdempotencyKey}
    {dirty : List KeyWrite} (hc : s.reconcilers p = .running (ik :: todo) dirty) :
    CycleInv cfg p (setCycle s p (.running todo dirty)) := by
  obtain ⟨htodo, hdirty, hnodup⟩ := hinv
  rw [hc] at htodo hdirty hnodup
  constructor <;> rw [setCycle_self]
  · exact fun ik' hik' => htodo ik' (List.mem_cons_of_mem _ hik')
  · exact hdirty
  · exact hnodup.sublist (List.Sublist.append_left (List.sublist_cons_self _ _) _)

/-- A step of the reconciler. SOURCE: app/consumer/rabbitmq.py:200-265 -/
theorem CycleInv.reconciler (hinv : CycleInv cfg p s) {now : Time} {a : ReconcilerAction}
    (hstep : ReconcilerStep cfg now s p a s') : CycleInv cfg p s' := by
  have hhead : ∀ {ik todo dirty}, s.reconcilers p = .running (ik :: todo) dirty →
      Counts s.keys ik.messageId ik.reconcileCount := by
    intro ik todo dirty hc
    exact hinv.todo ik (by rw [hc]; exact List.mem_cons_self)
  cases hstep with
  | select _ _ hn _ _ => exact .select hn
  | abandon hc hcap =>
    exact hinv.next (w := .abandoned _ _) hc rfl rfl ⟨_, hcap, hhead hc⟩ (setCycle_self _ _ _)
  | accepted hc hcap _ =>
    exact hinv.next (w := .counted _ _) hc rfl rfl ⟨_, rfl, hcap, hhead hc⟩ (setCycle_self _ _ _)
  | timeout hc _ => exact hinv.skip hc
  | _ => exact .of_idle (setCycle_self _ _ _)

end

/-- In every step of a run with one reconciler. -/
theorem CycleInv.step {cfg : Settings} {p : ConsumerId} {s s' : World} {a : Action}
    (hinv : CycleInv cfg p s.intake) (hC : OneConsumer p s a)
    (hs : Program.step cfg s a = some s') : CycleInv cfg p s'.intake := by
  have hkeys := keysStep_of_step hs
  cases worldStep_of_eq_some hs with
  | handler h => exact hinv.other hkeys rfl (congrFun h.cycles.1 p)
  | reconciler h =>
    obtain rfl := hC _ rfl
    exact hinv.reconciler h
  | publish _ => exact hinv.other hkeys rfl rfl
  | _ => exact hinv

/-! ## The rows -/

/-- SOURCE: app/consumer/rabbitmq.py:223-234 -/
structure RowBounded (cfg : Settings) (k : IdempotencyKey) : Prop where
  count_le : k.reconcileCount ≤ cfg.reconcilerMaxAttempts
  failed : k.status = .failed → k.reconcileCount = cfg.reconcilerMaxAttempts ∧ k.error ≠ none

/-- A later version of a row: the count has not gone down, and the row has not come back to
`received`. -/
structure RowLater (k k' : IdempotencyKey) : Prop where
  messageId : k'.messageId = k.messageId
  count_le : k.reconcileCount ≤ k'.reconcileCount
  received : k'.status = .received → k.status = .received

/-- A row is not later than itself. -/
theorem RowLater.refl (k : IdempotencyKey) : RowLater k k := ⟨rfl, le_refl _, id⟩

/-- Later versions of later versions are later. -/
theorem RowLater.trans {k₁ k₂ k₃ : IdempotencyKey} (h : RowLater k₁ k₂) (h' : RowLater k₂ k₃) :
    RowLater k₁ k₃ :=
  ⟨h'.messageId.trans h.messageId, h.count_le.trans h'.count_le, h.received ∘ h'.received⟩

/-- A new row was never re-enqueued. SOURCE: app/consumer/rabbitmq.py:47-66 -/
theorem rowBounded_newKey (cfg : Settings) (ev : NewEvent) (receivedAt : Time) :
    RowBounded cfg (newKey ev receivedAt) :=
  ⟨Nat.zero_le _, nofun⟩

section
variable {cfg : Settings} {p : ConsumerId} {s s' : Intake} {k k' : IdempotencyKey}

/-- The status after step 5 is `enriched` or the one before.
SOURCE: app/consumer/rabbitmq.py:191-195 -/
theorem storeEnrichment_status (ik : IdempotencyKey) (enriched : Json) (at' : Time)
    (k : IdempotencyKey) : (storeEnrichment ik enriched at' k).status = .enriched ∨
      (storeEnrichment ik enriched at' k).status = k.status := by
  show flushColumn ik.status .enriched k.status = .enriched ∨
    flushColumn ik.status .enriched k.status = k.status
  unfold flushColumn
  split
  · exact Or.inr rfl
  · exact Or.inl rfl

/-- A cycle's commit, row by row: a row is untouched, abandoned at the cap, or counted once
more. SOURCE: app/consumer/rabbitmq.py:223-261 -/
theorem flushRow_cases (hinv : CycleInv cfg p s) (hids : s.ids.Nodup) {dirty : List KeyWrite}
    (hc : s.reconcilers p = .running [] dirty) (hk : k ∈ s.keys) :
    (k.messageId ∉ dirty.map KeyWrite.messageId ∧ flushRow dirty k = k) ∨
    (cfg.reconcilerMaxAttempts ≤ k.reconcileCount ∧
      ∃ e, flushRow dirty k = { k with status := .failed, error := some e }) ∨
    (k.reconcileCount < cfg.reconcilerMaxAttempts ∧
      flushRow dirty k = { k with reconcileCount := k.reconcileCount + 1 }) := by
  have hdirty := hinv.dirty
  have hnodup := hinv.nodup
  rw [hc] at hdirty hnodup
  have hnodup : (dirty.map KeyWrite.messageId).Nodup := (List.nodup_append'.1 hnodup).1
  have hself : ∀ n, Counts s.keys k.messageId n → n = k.reconcileCount :=
    fun n hn => Counts.unique hids hn ⟨k, hk, rfl, rfl⟩
  by_cases hmem : k.messageId ∈ dirty.map KeyWrite.messageId
  · obtain ⟨w, hw, hid⟩ := List.mem_map.1 hmem
    have hfits := hdirty w hw
    rw [flushRow_of_mem dirty k hnodup hw hid]
    cases w with
    | abandoned m e =>
      obtain rfl : m = k.messageId := hid
      obtain ⟨n, hle, hn⟩ := hfits
      exact Or.inr (Or.inl ⟨hself n hn ▸ hle, e, by simp [KeyWrite.apply]⟩)
    | counted m n =>
      obtain rfl : m = k.messageId := hid
      obtain ⟨n', rfl, hlt, hn⟩ := hfits
      obtain rfl := hself n' hn
      exact Or.inr (Or.inr ⟨hlt, by simp [KeyWrite.apply]⟩)
  · exact Or.inl ⟨hmem, flushRow_of_not_mem dirty k hmem⟩

/-- No step takes a count over the cap. -/
theorem count_le_of_rowStep {a : Action} {w : World} (hinv : CycleInv cfg p s)
    (hids : s.ids.Nodup) (hC : OneConsumer p w a) (hk : k ∈ s.keys) (h : RowStep s s' a k k')
    (hle : k.reconcileCount ≤ cfg.reconcilerMaxAttempts) :
    k'.reconcileCount ≤ cfg.reconcilerMaxAttempts := by
  cases h with
  | flush hc =>
    obtain rfl := hC _ rfl
    obtain ⟨_, heq⟩ | ⟨_, e, heq⟩ | ⟨hlt, heq⟩ := flushRow_cases hinv hids hc hk
    · rwa [heq]
    · rwa [heq]
    · rw [heq]
      exact hlt
  | _ => exact hle

/-- What a step of a run with one reconciler does to a row. -/
theorem rowLater_of_rowStep {a : Action} {w : World} (hinv : CycleInv cfg p s)
    (hids : s.ids.Nodup) (hC : OneConsumer p w a) (hk : k ∈ s.keys) (h : RowStep s s' a k k') :
    RowLater k k' ∧ (RowBounded cfg k → RowBounded cfg k') := by
  cases h with
  | same => exact ⟨.refl k, id⟩
  | @store _ enriched at' ik _ _ _ =>
    have hst := storeEnrichment_status ik enriched at' k
    refine ⟨⟨rfl, le_refl _, fun h => ?_⟩, fun hok => ⟨hok.count_le, fun h => ?_⟩⟩
    · obtain heq | heq := hst
      · rw [heq] at h
        cases h
      · rwa [heq] at h
    · obtain heq | heq := hst
      · rw [heq] at h
        cases h
      · rw [heq] at h
        exact hok.failed h
  | @record _ error ik _ _ =>
    refine ⟨⟨rfl, le_refl _, id⟩, fun hok => ⟨hok.count_le, fun h => ?_⟩⟩
    obtain ⟨hcount, herror⟩ := hok.failed h
    refine ⟨hcount, ?_⟩
    show flushColumn ik.error (some error) k.error ≠ none
    unfold flushColumn
    split
    · exact herror
    · exact nofun
  | flush hc =>
    obtain rfl := hC _ rfl
    obtain ⟨_, heq⟩ | ⟨hcap, e, heq⟩ | ⟨hlt, heq⟩ := flushRow_cases hinv hids hc hk
    · rw [heq]
      exact ⟨.refl k, id⟩
    · rw [heq]
      exact ⟨⟨rfl, le_refl _, nofun⟩, fun hok =>
        ⟨hok.count_le, fun _ => ⟨le_antisymm hok.count_le hcap, nofun⟩⟩⟩
    · rw [heq]
      refine ⟨⟨rfl, Nat.le_succ _, id⟩, fun hok => ⟨hlt, fun h => ?_⟩⟩
      -- A failed row is at the cap already.
      have hcount := (hok.failed h).1
      omega

end

/-! ## What a cycle publishes -/

/-- The message that an action publishes. SOURCE: app/consumer/rabbitmq.py:236-249 -/
def publishes (s : Intake) : Action → List MessageId
  | .reconciler p (.publish _) => ((s.reconcilers p).todo.map IdempotencyKey.messageId).take 1
  | _ => []

/-- The action starts a cycle of consumer `p`. -/
def Selects (p : ConsumerId) (a : Action) : Prop := ∃ t₀ picks, a = .reconciler p (.select t₀ picks)

section
variable {cfg : Settings} {p : ConsumerId} {s s' s'' : World} {t₀ : Time}
  {picks : List MessageId} {as : List Action}

/-- A cycle starts when the one before has ended. SOURCE: app/consumer/rabbitmq.py:205-218 -/
theorem idle_of_select (hs : step cfg s (.reconciler p (.select t₀ picks)) = some s') :
    s.intake.reconcilers p = .idle := by
  cases worldStep_of_eq_some hs with
  | reconciler h =>
    cases h with
    | select hc _ _ _ _ => exact hc
    | stop _ ha => obtain ha | ha := ha <;> cases ha

/-- All that a cycle still has to do, its SELECT has found stale.
SOURCE: app/consumer/rabbitmq.py:208-219 -/
theorem todo_of_select (hs : step cfg s (.reconciler p (.select t₀ picks)) = some s')
    (h : run (step cfg) s' as = some s'') (hsame : ∀ a ∈ as, ¬ Selects p a) :
    ∀ ik ∈ (s''.intake.reconcilers p).todo, ik ∈ s.intake.keys ∧ isStale cfg t₀ ik = true := by
  refine run_induct (I := fun as s'' => (∀ a ∈ as, ¬ Selects p a) →
    ∀ ik ∈ (s''.intake.reconcilers p).todo, ik ∈ s.intake.keys ∧ isStale cfg t₀ ik = true)
    ?_ ?_ h hsame
  · intro _ ik hik
    obtain hik | ⟨t₁, _, heq, hk, hstale⟩ := todo_of_step hs hik
    · rw [idle_of_select hs] at hik
      cases hik
    · cases heq
      exact ⟨hk, hstale⟩
  · intro as m a m' _ ih hm hsame ik hik
    obtain hik | ⟨t₁, picks', rfl, _, _⟩ := todo_of_step hm hik
    · exact ih (fun b hb => hsame b (List.mem_append_left _ hb)) ik hik
    · exact absurd ⟨t₁, picks', rfl⟩ (hsame _ (List.mem_append_right _ List.mem_cons_self))

/-- A row that a cycle publishes was `received` when its SELECT ran.
SOURCE: app/consumer/rabbitmq.py:208-249 -/
theorem received_of_publishes (hids : s.intake.ids.Nodup)
    (hs : step cfg s (.reconciler p (.select t₀ picks)) = some s')
    (h : run (step cfg) s' as = some s'') (hsame : ∀ a ∈ as, ¬ Selects p a)
    {o : PublishOutcome} {m : MessageId}
    (hm : m ∈ publishes s''.intake (.reconciler p (.publish o))) {k : IdempotencyKey}
    (hk : k ∈ s.intake.keys) (hid : k.messageId = m) : k.status = .received := by
  obtain ⟨ik, hik, rfl⟩ := List.mem_map.1 (List.mem_of_mem_take hm)
  obtain ⟨hmem, hstale⟩ := todo_of_select hs h hsame ik hik
  rw [eq_of_key_eq hids hk hmem hid]
  simp only [isStale, Bool.and_eq_true, decide_eq_true_eq] at hstale
  exact hstale.1

end

/-! ## The result -/

/-- What holds of the rows in a state `s` of a run with one reconciler, and from it on. -/
structure Bookkeeping (cfg : Settings) (p : ConsumerId) (s : World) : Prop where
  bounded : ∀ k ∈ s.intake.keys, k.reconcileCount ≤ cfg.reconcilerMaxAttempts
  failed : ∀ k ∈ s.intake.keys, k.status = .failed →
    k.reconcileCount = cfg.reconcilerMaxAttempts ∧ k.error ≠ none
  /-- no count goes down, and no row comes back to `received` -/
  later : ∀ s', ReachableIf (step cfg) (OneConsumer p) s s' → ∀ k ∈ s.intake.keys,
    ∃ k' ∈ s'.intake.keys, RowLater k k'
  /-- what the cycle that starts in `s` publishes was `received` -/
  published : ∀ t₀ picks s' as s'' o,
    step cfg s (.reconciler p (.select t₀ picks)) = some s' → run (step cfg) s' as = some s'' →
    (∀ a ∈ as, ¬ Selects p a) →
    ∀ m ∈ publishes s''.intake (.reconciler p (.publish o)), ∀ k ∈ s.intake.keys,
      k.messageId = m → k.status ≠ .enriched ∧ k.status ≠ .failed

/-- With one consumer what a cycle has loaded stays right, in every state of the run. -/
theorem cycleInv_of_reachableIf {cfg : Settings} {p : ConsumerId} {s : World}
    (h : ReachableIf (step cfg) (OneConsumer p) World.init s) : CycleInv cfg p s.intake :=
  h.induct (I := fun s => CycleInv cfg p s.intake) (.of_idle rfl)
    fun _ _ _ _ hinv hC hs => hinv.step hC hs

/-- The bookkeeping of one reconciler, in every run with any number of calls and batches, any
timeouts and exceptions. SOURCE: app/consumer/rabbitmq.py:40-71,149-195,200-265 -/
theorem reconciler_bookkeeping (cfg : Settings) (p : ConsumerId) (s : World)
    (h : ReachableIf (step cfg) (OneConsumer p) World.init s) : Bookkeeping cfg p s := by
  have hrows : ∀ k ∈ s.intake.keys, RowBounded cfg k := by
    refine h.induct (I := fun s => ∀ k ∈ s.intake.keys, RowBounded cfg k) (fun _ h => ?_) ?_
    · exact absurd h List.not_mem_nil
    · intro s a s' hreach hrows hC hs k' hk'
      obtain ⟨k, hk, hrow⟩ | ⟨_, ev, receivedAt, _, _, _, rfl⟩ := (keysStep_of_step hs).of_mem hk'
      · exact (rowLater_of_rowStep (cycleInv_of_reachableIf hreach)
          (ids_nodup_of_reachable hreach.reachable) hC hk hrow).2 (hrows k hk)
      · exact rowBounded_newKey cfg ev receivedAt
  refine ⟨fun k hk => (hrows k hk).count_le, fun k hk => (hrows k hk).failed, ?_, ?_⟩
  · intro s' h'
    refine h'.induct (I := fun s' => ∀ k ∈ s.intake.keys, ∃ k' ∈ s'.intake.keys, RowLater k k')
      (fun k hk => ⟨k, hk, .refl k⟩) ?_
    intro m a m' hm ih hC hs k hk
    obtain ⟨k₁, hk₁, hlater⟩ := ih k hk
    obtain ⟨k₂, hk₂, hrow⟩ := (keysStep_of_step hs).exists_row hk₁
    have hreach := h.trans hm
    exact ⟨k₂, hk₂, hlater.trans (rowLater_of_rowStep (cycleInv_of_reachableIf hreach)
      (ids_nodup_of_reachable hreach.reachable) hC hk₁ hrow).1⟩
  · intro t₀ picks s' as s'' o hs has hsame m hm k hk hid
    have hreceived := received_of_publishes (ids_nodup_of_reachable h.reachable) hs has
      hsame hm hk hid
    rw [hreceived]
    exact ⟨nofun, nofun⟩

/-! ## A concrete history -/

/-- Ten cycles republish the event of an interrupted call, with one timeout among them, and
an eleventh abandons it. -/
def republishedToTheCap : List Action :=
  stuckInReceived ++
  [.select (minutes 5 + 1) [py "m"], .publish .timeout, .commit].map (.reconciler 0) ++
  (List.range 10).flatMap (fun i => republishCycle 0 (minutes 5 + 1) (py "m") (i + 1)) ++
  [.select (minutes 5 + 1) [py "m"], .abandon, .commit].map (.reconciler 0)

set_option maxRecDepth 4000 in
theorem republishedToTheCap_enabled :
    (run (step .default) World.init republishedToTheCap).isSome = true := by decide

set_option maxRecDepth 4000 in
/-- A message is re-enqueued up to the cap. -/
theorem reconciler_bookkeeping_republishedToTheCap :
    ∃ s, run (step .default) World.init republishedToTheCap = some s ∧ Bookkeeping .default 0 s :=
  ⟨_, (Option.some_get republishedToTheCap_enabled).symm,
    reconciler_bookkeeping .default 0 _
      (ReachableIf.of_run republishedToTheCap_enabled (by decide))⟩

end EventPipeline.Analysis

import EventPipeline.Analysis.CurrentEnrichment
import EventPipeline.Analysis.DeliveryCounters

/-!
# The message counters and the event records

A commit that the call sees is counted as received, one whose answer is lost is not, and what the
two make up are the rows of `idempotency_keys` in their order. A copy that is re-enqueued finds the
row of its message and is counted as a duplicate, so a message is counted at most once as received
and at most once as an enrichment error, and after an error it is never enriched.
-/

set_option autoImplicit false

namespace EventPipeline.Analysis

open EventPipeline.Model EventPipeline.Program EventPipeline.Interface EventPipeline.Computation

def countsError : Counter → Bool
  | .enrichmentErrors _ => true
  | _ => false

/-- The entries of the commits that have taken effect. -/
def storedEntry (e : MessageId × Option Counter) : Bool :=
  e.2 = none || e.2 = some .messagesReceived

/-- The enrichment errors that were counted for one message, whatever their type. -/
def errorsOf (m : MessageId) (log : List (MessageId × Option Counter)) : ℕ :=
  log.countP fun e => e.1 = m && e.2.any countsError

/-- The message of a call that may still enrich it. SOURCE: app/consumer/rabbitmq.py:146-195 -/
def willEnrich : Handler → Option MessageId
  | .committed ev | .enriching ev => some ev.messageId
  | .storing m _ _ | .storeLoaded m _ _ _ => some m
  | _ => none

/-- A call that will still enrich owns its event. -/
theorem owns_of_willEnrich {h : Handler} {m : MessageId} (hw : willEnrich h = some m) :
    h.owns = some m := by
  cases h with
  | recording _ _ => cases hw
  | recordLoaded _ _ _ => cases hw
  | _ => exact hw

/-! ## What one step counts -/

/-- No call begins to work on an enrichment. -/
def NoNewWork (s s' : World) : Prop :=
  ∀ t m, willEnrich (s'.intake.handlers t) = some m → willEnrich (s.intake.handlers t) = some m

/-- What a step counts, with what it does to the recorded ids and to the calls. -/
inductive Sampled (s s' : World) : List (MessageId × Option Counter) → Prop
  | nothing (hids : s'.intake.ids = s.intake.ids) (hw : NoNewWork s s') : Sampled s s' []
  | duplicate {m : MessageId} (hm : m ∈ s.intake.ids) (hids : s'.intake.ids = s.intake.ids)
      (hw : NoNewWork s s') : Sampled s s' [(m, some .messagesDuplicate)]
  | received {t : Tag} {ev : NewEvent} {receivedAt readAt : Time} {seen : List Subscriber}
      (hh : s.intake.handlers t = .selected ev receivedAt seen readAt)
      (hids : s'.intake.ids = s.intake.ids ++ [ev.messageId])
      (hw : ∀ t' m, willEnrich (s'.intake.handlers t') = some m →
        willEnrich (s.intake.handlers t') = some m ∨ m = ev.messageId) :
      Sampled s s' [(ev.messageId, some .messagesReceived)]
  | lost {t : Tag} {ev : NewEvent} {receivedAt readAt : Time} {seen : List Subscriber}
      (hh : s.intake.handlers t = .selected ev receivedAt seen readAt)
      (hids : s'.intake.ids = s.intake.ids ++ [ev.messageId]) (hw : NoNewWork s s') :
      Sampled s s' [(ev.messageId, none)]
  | error {t : Tag} {ev : NewEvent} {c : Counter} (hc : countsError c = true)
      (hh : s.intake.handlers t = .enriching ev)
      (ht : willEnrich (s'.intake.handlers t) = none) (hids : s'.intake.ids = s.intake.ids)
      (hw : NoNewWork s s') : Sampled s s' [(ev.messageId, some c)]

/-- A call that moves to a phase in which it works on the same enrichment or on none. -/
theorem noNewWork_update {s s' : World} {t : Tag} {h : Handler}
    (hs : s'.intake.handlers = Function.update s.intake.handlers t h)
    (hw : willEnrich h = none ∨ willEnrich h = willEnrich (s.intake.handlers t)) :
    NoNewWork s s' := by
  intro t' m hm
  rw [hs] at hm
  by_cases ht : t' = t
  · rw [ht, Function.update_self] at hm
    obtain hnone | heq := hw
    · rw [hnone] at hm
      cases hm
    · rw [ht, ← heq, hm]
  · rwa [Function.update_of_ne ht] at hm

/-- SOURCE: app/consumer/rabbitmq.py:106-197 -/
theorem sampled_of_handlerStep {cfg : Settings} {s : World} {t : Tag} {a : HandlerAction}
    {i : Intake} {attempts : List DeliveryAttempt}
    (h : HandlerStep cfg s.now s.registry.subscribers s.intake s.delivery.attempts t a i attempts) :
    Sampled s { s with intake := i, delivery := { s.delivery with attempts := attempts } }
      (callSamples s.intake t a) := by
  have hids : ∀ m (f : IdempotencyKey → IdempotencyKey), (∀ k, (f k).messageId = k.messageId) →
      (updateKey m f s.intake.keys).map IdempotencyKey.messageId = s.intake.ids :=
    fun m f hf => map_updateWhere _ fun k _ => hf k
  cases h with
  | duplicate hh hv hm =>
    simp only [callSamples, hh, hv, List.contains_iff_mem, if_pos hm]
    exact .duplicate hm rfl (noNewWork_update rfl (Or.inl rfl))
  | insertRaised hh hv =>
    simp only [callSamples, hh, hv]
    exact .nothing rfl (noNewWork_update rfl (Or.inl rfl))
  | insert hh hv hm _ =>
    simp only [callSamples, hh, hv, List.contains_iff_mem, if_neg hm]
    exact .nothing rfl (noNewWork_update rfl (Or.inl rfl))
  | @commit ids ev receivedAt readAt seen _ _ hh hc =>
    obtain ⟨_, _, rfl⟩ := commitEvent_eq_some hc
    simp only [callSamples, hh]
    refine .received hh ?_ fun t' m hm => ?_
    · simp [Intake.ids, newKey]
    · by_cases ht : t' = t
      · subst ht
        rw [Intake.setHandler_handlers, Function.update_self] at hm
        exact Or.inr (Option.some.inj hm).symm
      · rw [Intake.setHandler_handlers, Function.update_of_ne ht] at hm
        exact Or.inl hm
  | commitLost hh hc =>
    obtain ⟨_, _, rfl⟩ := commitEvent_eq_some hc
    simp only [callSamples, hh]
    refine .lost hh ?_ (noNewWork_update (t := t) (h := .idle) ?_ (Or.inl rfl))
    · simp [Intake.ids, newKey, raiseFrom]
    · simp [raiseFrom]
  | fatal hh =>
    simp only [callSamples, hh]
    exact .error rfl hh (by simp [willEnrich]) rfl (noNewWork_update rfl (Or.inl rfl))
  | @notEnriched ev o hh =>
    cases o with
    | transient =>
      simp only [callSamples, hh]
      exact .error rfl hh (by simp [willEnrich]) rfl (noNewWork_update rfl (Or.inl rfl))
    | fatal _ =>
      simp only [callSamples, hh]
      exact .error rfl hh (by simp [willEnrich]) rfl (noNewWork_update rfl (Or.inl rfl))
    | _ => exact .nothing rfl (noNewWork_update rfl (Or.inl rfl))
  | ackEarly hh => exact .nothing rfl (noNewWork_update rfl (Or.inr (by rw [hh]; rfl)))
  | enriched hh => exact .nothing rfl (noNewWork_update rfl (Or.inr (by rw [hh]; rfl)))
  | loadStore hh _ => exact .nothing rfl (noNewWork_update rfl (Or.inr (by rw [hh]; rfl)))
  | store _ => exact .nothing (hids _ _ fun _ => rfl) (noNewWork_update rfl (Or.inl rfl))
  | record _ => exact .nothing (hids _ _ fun _ => rfl) (noNewWork_update rfl (Or.inl rfl))
  | _ => exact .nothing rfl (noNewWork_update rfl (Or.inl rfl))

/-- Only the calls count messages. -/
theorem sampled_of_step {cfg : Settings} {s s' : World} {a : Action}
    (h : step cfg s a = some s') : Sampled s s' (messageSample s a) := by
  cases worldStep_of_eq_some h with
  | handler hs => exact sampled_of_handlerStep hs
  | reconciler hs =>
    cases hs with
    | commit _ => exact .nothing (ids_flushWrites _ _) fun _ _ hm => hm
    | _ => exact .nothing rfl fun _ _ hm => hm
  | _ => exact .nothing rfl fun _ _ hm => hm

/-! ## The invariant -/

/-- SOURCE: app/consumer/rabbitmq.py:131-197 -/
structure MessageInv (s : World) (log : List (MessageId × Option Counter)) : Prop where
  ids : (log.filter storedEntry).map Prod.fst = s.intake.ids
  duplicate : ∀ m, (m, some .messagesDuplicate) ∈ log → m ∈ s.intake.ids
  working : ∀ t m, willEnrich (s.intake.handlers t) = some m →
    (m, some .messagesReceived) ∈ log ∧ errorsOf m log = 0
  failed : ∀ m, errorsOf m log = 0 ∨ (errorsOf m log = 1 ∧ (m, some .messagesReceived) ∈ log ∧
    ∀ k ∈ s.intake.keys, k.messageId = m → k.enrichedPayload = none)

section
variable {cfg : Settings} {s s' : World} {log : List (MessageId × Option Counter)} {a : Action}

/-- The errors of two logs add up. -/
theorem errorsOf_append (m : MessageId) (log log' : List (MessageId × Option Counter)) :
    errorsOf m (log ++ log') = errorsOf m log + errorsOf m log' := by
  simp [errorsOf]

/-- A sample of another message is no error of this one. -/
theorem errorsOf_singleton_of_ne {m m' : MessageId} (h : m' ≠ m) (c : Option Counter) :
    errorsOf m [(m', c)] = 0 := by
  simp [errorsOf, h]

/-- A sample of another counter is no error. -/
theorem errorsOf_singleton_of_any {m m' : MessageId} {c : Option Counter}
    (h : c.any countsError = false) : errorsOf m [(m', c)] = 0 := by
  simp [errorsOf, h]

/-- A message with an entry of a commit is recorded. -/
theorem MessageInv.mem_ids (hinv : MessageInv s log) {m : MessageId}
    (h : (m, some .messagesReceived) ∈ log) : m ∈ s.intake.ids := by
  rw [← hinv.ids]
  exact List.mem_map.2 ⟨(m, some .messagesReceived), List.mem_filter.2 ⟨h, rfl⟩, rfl⟩

/-- A row without an enrichment stays so while no call is about to store one.
SOURCE: app/consumer/rabbitmq.py:186-195 -/
theorem not_enriched_of_step (honce : EnrichedOnce s.intake) (hs : step cfg s a = some s')
    {m : MessageId} (hfree : ∀ t v at' ik, s.intake.handlers t ≠ .storeLoaded m v at' ik)
    (hold : ∀ k ∈ s.intake.keys, k.messageId = m → k.enrichedPayload = none) :
    ∀ k' ∈ s'.intake.keys, k'.messageId = m → k'.enrichedPayload = none := by
  intro k' hk' hid
  obtain ⟨k, hk, hrow⟩ | ⟨_, _, _, _, _, _, rfl⟩ := (keysStep_of_step hs).of_mem hk'
  · have hkid : k.messageId = m := hrow.messageId ▸ hid
    obtain hkeep | ⟨_, v, hst, _, _, _⟩ := rowStep_enrichedPayload honce hrow
    · exact hkeep.trans (hold k hk hkid)
    · obtain ⟨t, at', ik, rfl, hh⟩ := storeLoaded_of_storing hst
      exact absurd (hkid ▸ hh) (hfree t v at' ik)
  · rfl

/-- A step that counts no error of `m`. -/
theorem MessageInv.failed_step (hinv : MessageInv s log) (honce : EnrichedOnce s.intake)
    (hs : step cfg s a = some s') {m : MessageId} {e : List (MessageId × Option Counter)}
    (he : errorsOf m e = 0) :
    errorsOf m (log ++ e) = 0 ∨ (errorsOf m (log ++ e) = 1 ∧
      (m, some .messagesReceived) ∈ log ++ e ∧
      ∀ k ∈ s'.intake.keys, k.messageId = m → k.enrichedPayload = none) := by
  rw [errorsOf_append, he, Nat.add_zero]
  refine (hinv.failed m).imp_right fun ⟨hone, hrec, hrow⟩ => ?_
  refine ⟨hone, List.mem_append_left _ hrec, not_enriched_of_step honce hs ?_ hrow⟩
  intro t v at' ik hh
  have hzero := (hinv.working t m (by rw [hh]; rfl)).2
  omega

/-- A call that goes on with its message, in a step that counts no error of it. -/
theorem MessageInv.working_step (hinv : MessageInv s log) {t : Tag} {m : MessageId}
    {e : List (MessageId × Option Counter)} (he : errorsOf m e = 0)
    (hw : willEnrich (s.intake.handlers t) = some m) :
    (m, some .messagesReceived) ∈ log ++ e ∧ errorsOf m (log ++ e) = 0 := by
  obtain ⟨hrec, hzero⟩ := hinv.working t m hw
  exact ⟨List.mem_append_left _ hrec, by rw [errorsOf_append, hzero, he]⟩

/-- One step keeps what the counters say of the rows. SOURCE: app/consumer/rabbitmq.py:106-197 -/
theorem messageInv_step (hintake : IntakeInv cfg s.intake) (honce : EnrichedOnce s.intake)
    (hinv : MessageInv s log) (hs : step cfg s a = some s') :
    MessageInv s' (log ++ messageSample s a) := by
  have hsampled := sampled_of_step hs
  generalize messageSample s a = e at hsampled ⊢
  have hids : (log ++ e).filter storedEntry = log.filter storedEntry ++ e.filter storedEntry :=
    List.filter_append ..
  cases hsampled with
  | nothing heq hw =>
    rw [List.append_nil]
    refine ⟨by rw [heq, hinv.ids], fun m hm => heq ▸ hinv.duplicate m hm,
      fun t m hm => hinv.working t m (hw t m hm), fun m => ?_⟩
    have hfailed := hinv.failed_step honce hs (m := m) (e := []) rfl
    rwa [List.append_nil] at hfailed
  | @duplicate m₀ hm₀ heq hw =>
    have hquiet : ∀ m, errorsOf m [(m₀, some .messagesDuplicate)] = 0 :=
      fun m => errorsOf_singleton_of_any rfl
    refine ⟨?_, fun m hm => ?_, fun t m hm => hinv.working_step (hquiet m) (hw t m hm),
      fun m => hinv.failed_step honce hs (hquiet m)⟩
    · rw [hids, List.map_append, hinv.ids, heq]
      exact List.append_nil _
    · rw [heq]
      obtain hold | hnew := List.mem_append.1 hm
      · exact hinv.duplicate m hold
      · cases List.mem_singleton.1 hnew
        exact hm₀
  | @received t₀ ev _ _ _ hh heq hw =>
    have hquiet : ∀ m, errorsOf m [(ev.messageId, some .messagesReceived)] = 0 :=
      fun m => errorsOf_singleton_of_any rfl
    refine ⟨?_, fun m hm => ?_, fun t m hm => ?_, fun m => hinv.failed_step honce hs (hquiet m)⟩
    · rw [hids, List.map_append, hinv.ids, heq]
      rfl
    · rw [heq]
      obtain hold | hnew := List.mem_append.1 hm
      · exact List.mem_append_left _ (hinv.duplicate m hold)
      · cases List.mem_singleton.1 hnew
    · obtain hold | rfl := hw t m hm
      · exact hinv.working_step (hquiet m) hold
      · refine ⟨List.mem_append_right _ (List.mem_singleton_self _), ?_⟩
        rw [errorsOf_append, hquiet, Nat.add_zero]
        -- A message with an error is recorded, and this one is new.
        have hnew := hintake.open_new t₀ ev.messageId (by rw [hh]; rfl)
        obtain hzero | ⟨_, hrec, _⟩ := hinv.failed ev.messageId
        · exact hzero
        · exact absurd (hinv.mem_ids hrec) hnew
  | @lost t₀ ev _ _ _ hh heq hw =>
    have hquiet : ∀ m, errorsOf m [(ev.messageId, none)] = 0 :=
      fun m => errorsOf_singleton_of_any rfl
    refine ⟨?_, fun m hm => ?_, fun t m hm => hinv.working_step (hquiet m) (hw t m hm),
      fun m => hinv.failed_step honce hs (hquiet m)⟩
    · rw [hids, List.map_append, hinv.ids, heq]
      rfl
    · rw [heq]
      obtain hold | hnew := List.mem_append.1 hm
      · exact List.mem_append_left _ (hinv.duplicate m hold)
      · cases List.mem_singleton.1 hnew
  | @error t₀ ev c hc hh ht heq hw =>
    have hown : (s.intake.handlers t₀).owns = some ev.messageId := by rw [hh]; rfl
    refine ⟨?_, fun m hm => ?_, fun t m hm => ?_, fun m => ?_⟩
    · have hnot : storedEntry (ev.messageId, some c) = false := by
        cases c with
        | enrichmentErrors _ => rfl
        | _ => cases hc
      rw [hids, List.map_append, hinv.ids, heq, List.filter_cons_of_neg (by simp [hnot])]
      exact List.append_nil _
    · rw [heq]
      obtain hold | hnew := List.mem_append.1 hm
      · exact hinv.duplicate m hold
      · cases List.mem_singleton.1 hnew
        cases hc
    · have hold := hw t m hm
      refine hinv.working_step (errorsOf_singleton_of_ne (fun hne => ?_) _) hold
      -- The call that has failed was the owner of its message.
      have hsame := hintake.owner_unique t t₀ m (owns_of_willEnrich hold) (hne ▸ hown)
      rw [hsame, ht] at hm
      cases hm
    · by_cases hm : ev.messageId = m
      · subst hm
        obtain ⟨hrec, hzero⟩ := hinv.working t₀ ev.messageId (by rw [hh]; rfl)
        refine Or.inr ⟨?_, List.mem_append_left _ hrec, ?_⟩
        · rw [errorsOf_append, hzero]
          simp [errorsOf, hc]
        · refine not_enriched_of_step honce hs (fun t v at' ik hl => ?_) (honce.owned t₀ _ hown)
          have hsame := hintake.owner_unique t t₀ _ (by rw [hl]; rfl) hown
          rw [hsame, hh] at hl
          cases hl
      · exact hinv.failed_step honce hs (errorsOf_singleton_of_ne hm _)

/-- What the counters say of the rows holds after every run. -/
theorem messageInv_of_run {as : List Action} (h : run (step cfg) World.init as = some s) :
    MessageInv s (messageSamples cfg as) := by
  refine history_induct (I := MessageInv) ?_ ?_ h
  · exact ⟨rfl, fun _ hm => absurd hm List.not_mem_nil, fun _ _ hm => (nomatch hm),
      fun _ => Or.inl rfl⟩
  · intro s log a s' hreach hinv hs
    exact messageInv_step (intakeInv_of_reachable hreach) (enrichedOnce_of_reachable hreach) hinv hs

/-! ## The counters -/

/-- A message is stored when it is counted as received, or its commit was lost. -/
theorem count_storedEntry (m : MessageId) (log : List (MessageId × Option Counter)) :
    ((log.filter storedEntry).map Prod.fst).count m =
      log.count (m, some .messagesReceived) + log.count (m, none) := by
  induction log with
  | nil => rfl
  | cons e log ih =>
    obtain ⟨m', c⟩ := e
    by_cases hc : storedEntry (m', c) = true
    · rw [List.filter_cons_of_pos hc, List.map_cons, List.count_cons, List.count_cons,
        List.count_cons, ih]
      simp only [storedEntry, Bool.or_eq_true, decide_eq_true_eq] at hc
      by_cases hm : m' = m
      · obtain rfl | rfl := hc
        · simp [hm]
          omega
        · simp [hm]
          omega
      · simp [hm]
    · rw [List.filter_cons_of_neg hc, List.count_cons, List.count_cons, ih]
      simp only [storedEntry, Bool.or_eq_true, decide_eq_true_eq, not_or] at hc
      simp [hc]

/-- The stored messages are those that were counted and those that were not. -/
theorem length_storedEntry (log : List (MessageId × Option Counter)) :
    (log.filter storedEntry).length = counterValue log .messagesReceived + uncounted log := by
  induction log with
  | nil => rfl
  | cons e log ih =>
    rw [counterValue_cons, uncounted_cons]
    by_cases hc : storedEntry e = true
    · rw [List.filter_cons_of_pos hc, List.length_cons, ih]
      simp only [storedEntry, Bool.or_eq_true, decide_eq_true_eq] at hc
      obtain hc | hc := hc
      · simp [hc]
        omega
      · simp [hc]
        omega
    · rw [List.filter_cons_of_neg hc, ih]
      simp only [storedEntry, Bool.or_eq_true, decide_eq_true_eq, not_or] at hc
      simp [hc]

/-- What the message counters say of the table. -/
structure MessagesCounted (cfg : Settings) (as : List Action) (s : World) : Prop where
  /-- one row for each message that was counted as received, and for each lost commit -/
  stored : counterValue (messageSamples cfg as) .messagesReceived +
    uncounted (messageSamples cfg as) = s.intake.keys.length
  once : ∀ m, (messageSamples cfg as).count (m, some .messagesReceived) +
    (messageSamples cfg as).count (m, none) = s.intake.ids.count m
  duplicate : ∀ m, (m, some .messagesDuplicate) ∈ messageSamples cfg as → m ∈ s.intake.ids
  failed_once : ∀ m, errorsOf m (messageSamples cfg as) ≤
    (messageSamples cfg as).count (m, some .messagesReceived)
  errors : ((messageSamples cfg as).countP fun e => e.2.any countsError) ≤
    counterValue (messageSamples cfg as) .messagesReceived
  not_enriched : ∀ k ∈ s.intake.keys, errorsOf k.messageId (messageSamples cfg as) ≠ 0 →
    k.enrichedPayload = none

/-- The messages with an error are received messages, each of them once. -/
theorem MessageInv.errors_le (hinv : MessageInv s log) :
    (log.countP fun e => e.2.any countsError) ≤ counterValue log .messagesReceived := by
  have hcount : ∀ m, ((log.filter fun e => e.2.any countsError).map Prod.fst).count m =
      errorsOf m log := by
    intro m
    rw [List.count, List.countP_map, List.countP_filter]
    exact List.countP_congr fun e _ => by simp
  have hn : ((log.filter fun e => e.2.any countsError).map Prod.fst).Nodup := by
    refine List.nodup_iff_count_le_one.2 fun m => ?_
    rw [hcount]
    obtain hzero | ⟨hone, _⟩ := hinv.failed m
    · omega
    · omega
  rw [List.countP_eq_length_filter, ← List.countP_true]
  refine countP_le_count hn fun e he _ => ?_
  obtain ⟨he, herr⟩ := List.mem_filter.1 he
  have hpos : 0 < errorsOf e.1 log := List.countP_pos_iff.2 ⟨e, he, by simp [herr]⟩
  obtain hzero | ⟨_, hrec, _⟩ := hinv.failed e.1
  · omega
  · exact hrec

end

/-- The enrichment fails, the reconciler re-enqueues the message, and its second copy is handled. -/
def errorThenDuplicate : List Action :=
  oneAttempt ++ [.handler 0 (.enrich .transient), .tick (minutes 6)] ++
  republishCycle 0 (minutes 6) (py "m") 1 ++ [.start ⟨5⟩, .insert, .ack].map (.handler 1)

theorem errorThenDuplicate_enabled :
    (run (step .default) World.init errorThenDuplicate).isSome = true := by
  decide

end EventPipeline.Analysis

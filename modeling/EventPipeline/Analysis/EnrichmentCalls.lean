import EventPipeline.Interface.ProviderSteps
import EventPipeline.Analysis.EventReads

/-!
# The calls of the provider for one message

The only loop for a message is that of the call which has accepted it, and a message is accepted
once. So all that is seen of the provider for a message, over redeliveries, re-enqueued copies and
crashes, is one run of `_enrich_with_retry`. The invariant ties the state of that loop to the phase
of the call.
-/

set_option autoImplicit false

namespace EventPipeline.Analysis

open EventPipeline.Model EventPipeline.Program EventPipeline.Interface EventPipeline.Computation

/-- The calls of the provider for message `m`. -/
def loopOf (m : MessageId) (log : List (NewEvent × LoopEvent EnrichOutcome)) :
    List (LoopEvent EnrichOutcome) :=
  (log.filter fun e => e.1.messageId = m).map Prod.snd

/-- What is seen of the provider for message `m` is a loop that is in state `loop`. -/
def LoopAt (m : MessageId) (log : List (NewEvent × LoopEvent EnrichOutcome))
    (loop : LoopState EnrichOutcome) : Prop :=
  run enrichWithRetry.next .start (loopOf m log) = some loop

/-- The loop for message `m` has ended with the enriched payload `v`. -/
def Enriched (m : MessageId) (v : Json) (log : List (NewEvent × LoopEvent EnrichOutcome)) : Prop :=
  ∃ fields, v = .obj fields ∧ LoopAt m log (.done (.result fields))

/-- The key row of the event has its type and its payload. -/
def EventRow (keys : List IdempotencyKey) (ev : NewEvent) : Prop :=
  ∃ k ∈ keys, k.messageId = ev.messageId ∧ k.eventType = ev.eventType ∧ k.rawPayload = ev.payload

/-- What a call in each phase has seen of its loop. SOURCE: app/consumer/rabbitmq.py:138-195 -/
def CallLoop (keys : List IdempotencyKey) (log : List (NewEvent × LoopEvent EnrichOutcome))
    (loop : LoopState EnrichOutcome) : Handler → Prop
  | .committed ev => EventRow keys ev ∧ loopOf ev.messageId log = []
  | .enriching ev => EventRow keys ev ∧ LoopAt ev.messageId log loop
  | .storing m v _ | .storeLoaded m v _ _ => Enriched m v log
  | _ => True

structure LoopInv (s : ProviderWorld) (log : List (NewEvent × LoopEvent EnrichOutcome)) : Prop where
  new : ∀ m, m ∉ s.world.intake.ids → loopOf m log = []
  loop : ∀ m, ∃ loop, LoopAt m log loop
  call : ∀ t, CallLoop s.world.intake.keys log (s.loops t) (s.world.intake.handlers t)
  row : ∀ k ∈ s.world.intake.keys, ∀ v, k.enrichedPayload = some v → Enriched k.messageId v log
  given : ∀ e ∈ log, EventRow s.world.intake.keys e.1

section
variable {cfg : Settings} {s : ProviderWorld} {w w' : World} {a : Action} {t : Tag} {h : Handler}
  {keys keys' : List IdempotencyKey} {loop : LoopState EnrichOutcome}
  {log log' : List (NewEvent × LoopEvent EnrichOutcome)}

/-! ## Entries about one message -/

/-- An event of the message is one more of its loop. -/
theorem loopOf_snoc_self (ev : NewEvent) (e : LoopEvent EnrichOutcome) :
    loopOf ev.messageId (log ++ [(ev, e)]) = loopOf ev.messageId log ++ [e] := by
  simp [loopOf]

/-- An event of another message is none of its loop. -/
theorem loopOf_snoc_of_ne {m : MessageId} {ev : NewEvent} (e : LoopEvent EnrichOutcome)
    (hne : ev.messageId ≠ m) : loopOf m (log ++ [(ev, e)]) = loopOf m log := by
  simp [loopOf, hne]

/-- The loop goes on by one of its steps. -/
theorem LoopAt.snoc {ev : NewEvent} {e : LoopEvent EnrichOutcome} {loop' : LoopState EnrichOutcome}
    (hloop : LoopAt ev.messageId log loop) (hn : enrichWithRetry.next loop e = some loop') :
    LoopAt ev.messageId (log ++ [(ev, e)]) loop' := by
  rw [LoopAt, loopOf_snoc_self]
  exact run_append_eq_some.2 ⟨loop, hloop, run_singleton.trans hn⟩

/-- Events of other messages do not change what a message was enriched with. -/
theorem Enriched.congr {m : MessageId} {v : Json} (hloop : loopOf m log' = loopOf m log)
    (he : Enriched m v log) : Enriched m v log' := by
  obtain ⟨fields, hv, hat⟩ := he
  exact ⟨fields, hv, by rwa [LoopAt, hloop]⟩

/-- Rows are kept, and what is seen of other messages does not matter. -/
theorem CallLoop.mono (hc : CallLoop keys log loop h)
    (hkeys : ∀ ev, EventRow keys ev → EventRow keys' ev)
    (hlog : ∀ m, h.owns = some m → loopOf m log' = loopOf m log) : CallLoop keys' log' loop h := by
  cases h with
  | committed ev => exact ⟨hkeys ev hc.1, (hlog _ rfl).trans hc.2⟩
  | enriching ev =>
    refine ⟨hkeys ev hc.1, ?_⟩
    rw [LoopAt, hlog _ rfl]
    exact hc.2
  | storing m v at' => exact hc.congr (hlog _ rfl)
  | storeLoaded m v at' ik => exact hc.congr (hlog _ rfl)
  | _ => trivial

/-- The row of an event keeps its type and payload. -/
theorem EventRow.of_step (hreach : Reachable (step cfg) World.init w) (hs : step cfg w a = some w')
    {ev : NewEvent} (hrow : EventRow w.intake.keys ev) : EventRow w'.intake.keys ev := by
  obtain ⟨k, hk, hid, htype, hpayload⟩ := hrow
  obtain ⟨k', hk', hext⟩ := keysExtend_of_reachable hreach ⟨[a], run_singleton.trans hs⟩ k hk
  exact ⟨k', hk', hext.messageId.trans hid, hext.eventType.trans htype,
    hext.rawPayload.trans hpayload⟩

/-! ## A call of the provider begins or ends -/

/-- The loop of call `t` takes a step. SOURCE: app/consumer/rabbitmq.py:96-103 -/
theorem LoopInv.loop_step (hintake : IntakeInv cfg s.world.intake)
    (honce : EnrichedOnce s.world.intake) (hinv : LoopInv s log) {ev : NewEvent}
    {e : LoopEvent EnrichOutcome}
    (hh : s.world.intake.handlers t = .enriching ev)
    (hn : enrichWithRetry.next (s.loops t) e = some loop) :
    LoopInv (s.setLoop t loop) (log ++ [(ev, e)]) := by
  have hcall := hinv.call t
  rw [hh] at hcall
  have howns : (s.world.intake.handlers t).owns = some ev.messageId := by rw [hh]; rfl
  refine ⟨fun m hm => ?_, fun m => ?_, fun t' => ?_, fun k hk v hv => ?_, fun x hx => ?_⟩
  · have hne : ev.messageId ≠ m := fun heq => hm (heq ▸ (hintake.call t).owned _ howns)
    rw [loopOf_snoc_of_ne e hne]
    exact hinv.new m hm
  · by_cases hm : ev.messageId = m
    · exact hm ▸ ⟨loop, hcall.2.snoc hn⟩
    · obtain ⟨loop', hat⟩ := hinv.loop m
      exact ⟨loop', by rwa [LoopAt, loopOf_snoc_of_ne e hm]⟩
  · show CallLoop s.world.intake.keys _ (Function.update s.loops t loop t')
      (s.world.intake.handlers t')
    by_cases ht : t' = t
    · subst ht
      rw [Function.update_self, hh]
      exact ⟨hcall.1, hcall.2.snoc hn⟩
    · rw [Function.update_of_ne ht]
      refine (hinv.call t').mono (fun _ hrow => hrow) fun m hm => ?_
      refine loopOf_snoc_of_ne e fun heq => ht ?_
      exact hintake.owner_unique t' t m hm (heq ▸ howns)
  · have hne : ev.messageId ≠ k.messageId := by
      intro heq
      have hnone := honce.owned t _ howns k hk heq.symm
      rw [hv] at hnone
      cases hnone
    exact (hinv.row k hk v hv).congr (loopOf_snoc_of_ne e hne)
  · obtain hx | hx := List.mem_append.1 hx
    · exact hinv.given x hx
    · exact List.mem_singleton.1 hx ▸ hcall.1

/-! ## A step of the pipeline -/

/-- The call that moves. SOURCE: app/consumer/rabbitmq.py:106-197 -/
theorem callLoop_of_handlerStep {i : Intake} {attempts : List DeliveryAttempt} {b : HandlerAction}
    (hintake : IntakeInv cfg w.intake) (hnew : ∀ m, m ∉ w.intake.ids → loopOf m log = [])
    (hcall : CallLoop w.intake.keys log loop (w.intake.handlers t))
    (hdone : ∀ fields, b = .enrich (.result fields) → loop = .done (.result fields))
    (hs : HandlerStep cfg w.now w.registry.subscribers w.intake w.delivery.attempts t b i attempts)
    (hrows : ∀ ev, EventRow w.intake.keys ev → EventRow i.keys ev) :
    CallLoop i.keys log .start (i.handlers t) := by
  cases hs with
  | @commit _ ev receivedAt _ _ _ _ hh hc =>
    obtain ⟨_, _, rfl⟩ := commitEvent_eq_some hc
    simp only [Intake.setHandler_handlers, Function.update_self]
    refine ⟨⟨newKey ev receivedAt, by simp, rfl, rfl, rfl⟩, hnew _ ?_⟩
    exact hintake.open_new t _ (by rw [hh]; rfl)
  | commitLost hh hc =>
    obtain ⟨_, _, rfl⟩ := commitEvent_eq_some hc
    simp [raiseFrom, CallLoop]
  | ackEarly hh =>
    rw [hh] at hcall
    simp only [Intake.setCopy_eq, Intake.modifyCopy_handlers, Intake.setHandler_handlers,
      Function.update_self]
    refine ⟨hrows _ hcall.1, ?_⟩
    rw [LoopAt, hcall.2]
    rfl
  | enriched hh =>
    rw [hh] at hcall
    simp only [Intake.setHandler_handlers, Function.update_self]
    exact ⟨_, rfl, hdone _ rfl ▸ hcall.2⟩
  | loadStore hh _ =>
    rw [hh] at hcall
    simp only [Intake.setHandler_handlers, Function.update_self]
    exact hcall
  | _ => simp [CallLoop, raiseFrom, crashHandler]

/-- A step of the pipeline that ends no loop, or ends one with the outcome that the loop has. -/
theorem LoopInv.pipeline_step (hreach : Reachable (step cfg) World.init s.world)
    (hinv : LoopInv s log) (hs : step cfg s.world a = some w)
    (hdone : ∀ t fields, a = .handler t (.enrich (.result fields)) →
      s.loops t = .done (.result fields)) :
    LoopInv { leaveLoop s a with world := w } log := by
  have hintake : IntakeInv cfg s.world.intake := intakeInv_of_reachable hreach
  have hrows : ∀ ev, EventRow s.world.intake.keys ev → EventRow w.intake.keys ev :=
    fun _ => EventRow.of_step hreach hs
  have hkeys := keysStep_of_step hs
  refine ⟨fun m hm => hinv.new m fun hmem => hm (hkeys.ids_subset hmem), hinv.loop, fun t => ?_,
    fun k' hk' v hv => ?_, fun e he => hrows _ (hinv.given e he)⟩
  · have hkeep : CallLoop w.intake.keys log (s.loops t) (s.world.intake.handlers t) :=
      (hinv.call t).mono hrows fun _ _ => rfl
    cases worldStep_of_eq_some hs with
    | @handler t' b i attempts hstep =>
      show CallLoop i.keys log (Function.update s.loops t' .start t) (i.handlers t)
      by_cases ht : t = t'
      · subst ht
        rw [Function.update_self]
        exact callLoop_of_handlerStep hintake hinv.new (hinv.call t)
          (fun fields hb => hdone t fields (hb ▸ rfl)) hstep hrows
      · rw [Function.update_of_ne ht, (hstep.frame ht).1]
        exact hkeep
    | reconciler hstep => cases hstep <;> exact hkeep
    | _ => exact hkeep
  · obtain ⟨k, hk, hrow⟩ | ⟨_, _, _, _, _, _, rfl⟩ := hkeys.of_mem hk'
    · rw [hrow.messageId]
      obtain hkeep | ⟨_, v', hst, hv', _, _⟩ :=
        rowStep_enrichedPayload (enrichedOnce_of_reachable hreach) hrow
      · exact hinv.row k hk v (hkeep ▸ hv)
      · obtain ⟨t, at', ik, rfl, hh⟩ := storeLoaded_of_storing hst
        have hcall := hinv.call t
        rw [hh] at hcall
        rw [hv] at hv'
        cases hv'
        exact hcall
    · cases hv

/-- What the calls of the provider have to do with the loops holds after every run. -/
theorem loopInv_of_run {as : List ProviderAction}
    (h : run (providerStep cfg) ProviderWorld.init as = some s) :
    LoopInv s (providerEvents cfg as) := by
  refine history_induct (I := LoopInv)
    ⟨fun _ _ => rfl, fun _ => ⟨.start, rfl⟩, fun _ => trivial, nofun, nofun⟩ ?_ h
  rintro s log a s' ⟨as, has⟩ hinv hs
  have hreach : Reachable (step cfg) World.init s.world := ⟨_, run_pipelineActions has⟩
  have hintake : IntakeInv cfg s.world.intake := intakeInv_of_reachable hreach
  have honce := enrichedOnce_of_reachable hreach
  cases providerStep_of_eq_some hs with
  | other hne hw =>
    rw [providerEvent, List.append_nil]
    exact hinv.pipeline_step hreach hw fun t _ heq => absurd heq (hne t _)
  | noProvider _ hw =>
    rw [providerEvent, List.append_nil]
    exact hinv.pipeline_step hreach hw fun _ _ heq => by cases heq
  | begins hh hn =>
    simp only [providerEvent, hh]
    exact hinv.loop_step hintake honce hh hn
  | again hh hn _ =>
    simp only [providerEvent, hh]
    exact hinv.loop_step hintake honce hh hn
  | @ends t _ _ o' w hh hn hw =>
    simp only [providerEvent, hh]
    have hmid := hinv.loop_step hintake honce hh hn
    have hend := LoopInv.pipeline_step (s := s.setLoop t (.done o')) hreach hmid hw
      fun _ _ heq => by
        cases heq
        exact Function.update_self _ _ _
    simpa [leaveLoop, ProviderWorld.setLoop] using hend

/-! ## The calls for one message -/

/-- What is seen of the provider for each message. SOURCE: app/consumer/rabbitmq.py:96-103 -/
structure ProviderCalled (cfg : Settings) (as : List ProviderAction) (s : ProviderWorld) :
    Prop where
  /-- the pipeline that takes each loop as one step can follow -/
  refines : run (step cfg) World.init (pipelineActions cfg as) = some s.world
  given : ∀ e ∈ providerEvents cfg as, EventRow s.world.intake.keys e.1
  /-- the calls for a message are one run of the retry loop from its start -/
  loop : ∀ m, ∃ loop, LoopAt m (providerEvents cfg as) loop
  at_most : ∀ m, attemptsIn (loopOf m (providerEvents cfg as)) ≤ 3
  /-- a call that has begun ends before the next one begins -/
  in_turn : ∀ m es now e rest, loopOf m (providerEvents cfg as) = es ++ .begins now :: e :: rest →
    ∃ at' o, e = .ends at' o
  /-- each call but the first one comes right after a transient failure -/
  after : ∀ m es e now rest, loopOf m (providerEvents cfg as) = es ++ e :: .begins now :: rest →
    ∃ at', e = .ends at' .transient
  again : ∀ m os o, outcomesIn (loopOf m (providerEvents cfg as)) = os ++ [o] →
    ∀ x ∈ os, x = .transient
  waits : ∀ m es at' o next rest,
    loopOf m (providerEvents cfg as) = es ++ .ends at' o :: .begins next :: rest →
    at' + waitExponential (attemptsIn es) ≤ next
  enriched : ∀ k ∈ s.world.intake.keys, ∀ v, k.enrichedPayload = some v → ∃ os fields,
    v = .obj fields ∧
      outcomesIn (loopOf k.messageId (providerEvents cfg as)) = os ++ [.result fields]

/-- The outcomes that are tried again are the transient ones.
SOURCE: app/consumer/rabbitmq.py:96-101 -/
theorem eq_transient_of_isTransient {o : EnrichOutcome} (h : isTransient o = true) :
    o = .transient := by
  cases o with
  | transient => rfl
  | _ => cases h

end

/-- The provider fails, is called again after a second and returns. -/
def retriedEnrichment : List ProviderAction :=
  oneAttempt.map .other ++
  [.begins 0, .ends 0 .transient, .other (.tick (seconds 1)), .begins 0, .ends 0 (.result []),
    .other (.handler 0 .load), .other (.handler 0 .write)]

theorem retriedEnrichment_enabled :
    (run (providerStep .default) ProviderWorld.init retriedEnrichment).isSome = true := by
  decide

end EventPipeline.Analysis

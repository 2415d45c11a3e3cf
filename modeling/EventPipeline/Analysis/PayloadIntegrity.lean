import EventPipeline.Computation.History
import EventPipeline.Program.Enricher
import EventPipeline.Program.Publish
import EventPipeline.Interface.CallSteps
import EventPipeline.Analysis.CurrentEnrichment
import EventPipeline.Analysis.WebhookId

/-!
# Payload integrity

A copy of a message bears an event: its id, its type and its payload. Everything that is made
of the event on the way (the local variables of the call, the key row, the rows that a cycle
or a worker has loaded, the copies that a reconciler publishes) agrees with the event of one
copy, the one whose call has created the key row. The providers only add one key.
-/

set_option autoImplicit false

namespace EventPipeline.Analysis

open EventPipeline.Model EventPipeline.Program EventPipeline.Interface EventPipeline.Computation

/-! ## The event that a body bears -/

structure Event where
  messageId : PyStr
  eventType : PyStr
  payload : List (PyStr × Json)

def Event.json (e : Event) : Json :=
  .obj
    [(py "message_id", .str e.messageId), (py "event_type", .str e.eventType),
      (py "payload", .obj e.payload)]

/-- The consumer reads the event from the body. SOURCE: app/consumer/rabbitmq.py:118-128 -/
structure Bears (b : Body) (e : Event) : Prop where
  loads : b.loads = .value e.json
  messageId : e.messageId ≠ []

/-- A body bears one event only. -/
theorem Bears.unique {b : Body} {e e' : Event} (h : Bears b e) (h' : Bears b e') : e = e' := by
  have heq : LoadsResult.value e.json = .value e'.json := h.loads.symm.trans h'.loads
  obtain ⟨m, t, p⟩ := e
  obtain ⟨m', t', p'⟩ := e'
  simpa [Event.json] using heq

/-- The event of an accepted request. SOURCE: app/api/events.py:25-33 -/
def requestEvent (req : EventPublishRequest) (u : Uuid) : Event :=
  ⟨publishedId req u, req.eventType, req.payload⟩

/-- What was assumed of the values of a request: reading back gives what was written. -/
def RoundTrips (req : EventPublishRequest) (u : Uuid) : Prop :=
  (publishedEvent req u).reread = publishedEvent req u

/-- The body of a publish bears the event of its request. SOURCE: app/api/events.py:25-33 -/
theorem bears_publishEvent {req : EventPublishRequest} {u : Uuid} (h : RoundTrips req u) :
    Bears (publishEvent req u) (requestEvent req u) := by
  refine ⟨?_, publishedId_ne_nil req u⟩
  show LoadsResult.value (publishedEvent req u).reread = _
  rw [h]
  rfl

/-- The call takes the three values from the body. SOURCE: app/consumer/rabbitmq.py:109-128 -/
theorem parseMessage_of_bears {cfg : Settings} {b : Body} {e : Event} {u : Uuid} {raw : RawEvent}
    (h : Bears b e) (hp : parseMessage cfg b u = .event raw) :
    raw = ⟨.str e.messageId, .str e.eventType, .obj e.payload⟩ := by
  have hne : py "message_id" ≠ py "event_type" ∧ py "message_id" ≠ py "payload" ∧
      py "event_type" ≠ py "payload" := by decide
  unfold parseMessage at hp
  split at hp
  · cases hp
  · rw [h.loads] at hp
    simp only [Event.json, Parsed.event.injEq] at hp
    rw [← hp]
    simp [Json.get, hne, Json.truthy, h.messageId]

/-! ## What agrees with an event -/

/-- The local variables of a call on the event. SOURCE: app/consumer/rabbitmq.py:125-195 -/
def Agrees (e : Event) : Handler → Prop
  | .parsed raw => raw = ⟨.str e.messageId, .str e.eventType, .obj e.payload⟩
  | .inserted new _ | .selected new _ _ _ | .committed new | .enriching new =>
    new = ⟨e.messageId, e.eventType, .obj e.payload⟩
  | .storing m enriched _ | .storeLoaded m enriched _ _ =>
    m = e.messageId ∧ ∃ x, enriched = .obj (withEnrichment e.payload x)
  | _ => True

/-- The key row of the event. -/
structure RowOf (e : Event) (k : IdempotencyKey) : Prop where
  messageId : k.messageId = e.messageId
  eventType : k.eventType = e.eventType
  rawPayload : k.rawPayload = .obj e.payload
  enrichedPayload : ∀ v, k.enrichedPayload = some v → ∃ x, v = .obj (withEnrichment e.payload x)

/-- What the POSTs of a row may carry: the raw or the enriched payload. -/
theorem RowOf.delivered {e : Event} {k : IdempotencyKey} (h : RowOf e k) :
    ∃ fields, deliveredPayload k = .obj fields ∧
      ∀ key, key ≠ enrichmentKey → Json.get fields key = Json.get e.payload key := by
  unfold deliveredPayload
  cases hv : k.enrichedPayload with
  | none => exact ⟨e.payload, h.rawPayload, fun _ _ => rfl⟩
  | some v =>
    dsimp only
    split
    · obtain ⟨x, rfl⟩ := h.enrichedPayload v hv
      exact ⟨_, rfl, fun key hkey => Json.get_setItem_of_ne hkey⟩
    · exact ⟨e.payload, h.rawPayload, fun _ _ => rfl⟩

/-- A re-enqueued copy bears the event of the row. SOURCE: app/consumer/rabbitmq.py:236-242 -/
theorem bears_reEnqueueBody {e : Event} {ik : IdempotencyKey} (h : RowOf e ik)
    (hne : e.messageId ≠ []) : Bears (reEnqueueBody ik) e := by
  refine ⟨?_, hne⟩
  show LoadsResult.value _ = .value e.json
  rw [h.messageId, h.eventType, h.rawPayload]
  rfl

/-! ## The runs and what is recorded of them -/

/-- Messages are published by `publish_event`, and enrichments come from one of the two
providers. -/
def PublishesAndEnriches (s : World) : Action → Prop
  | .publish _ body => ∃ req u, body = publishEvent req u ∧ RoundTrips req u
  | .handler t (.enrich o) => ∀ ev payload, s.intake.handlers t = .enriching ev →
    ev.payload = .obj payload → Provided ev.eventType payload o
  | _ => True

inductive Entry where
  | published (t : Tag) (body : Body)
  /-- call `t` has committed the key row of `m` -/
  | recorded (t : Tag) (m : MessageId)

def Entry.publishedTag : Entry → Option Tag
  | .published t _ => some t
  | .recorded _ _ => none

def entries (s : World) : Action → List Entry
  | .publish t body => [.published t body]
  | a => (recordedBy s.intake a).map fun p => .recorded p.1 p.2

def entriesOf (cfg : Settings) (as : List Action) : List Entry :=
  history (step cfg) entries World.init as

/-- A publish is logged by the step that makes it. -/
theorem of_published_mem {s : World} {a : Action} {t : Tag} {b : Body}
    (h : Entry.published t b ∈ entries s a) : a = .publish t b := by
  unfold entries at h
  split at h
  · cases List.mem_singleton.1 h
    rfl
  · obtain ⟨_, _, heq⟩ := List.mem_map.1 h
    cases heq

/-- A record is logged by the commit of its call. -/
theorem recorded_mem_iff {s : World} {a : Action} {t : Tag} {m : MessageId} :
    Entry.recorded t m ∈ entries s a ↔ (t, m) ∈ recordedBy s.intake a := by
  unfold entries
  split
  · simp [recordedBy]
  · simp

/-! ## The invariant -/

/-- The row has the event of the copy whose call has recorded its message. -/
def ComesFrom (s : Intake) (log : List Entry) (k : IdempotencyKey) : Prop :=
  ∃ t c e, Entry.recorded t k.messageId ∈ log ∧ s.copies t = some c ∧ Bears c.body e ∧ RowOf e k

structure TraceInv (s : World) (log : List Entry) : Prop where
  /-- a copy bears an event, and is published or belongs to an event that is recorded -/
  copy : ∀ t c, s.intake.copies t = some c →
    ∃ e, Bears c.body e ∧ (Entry.published t c.body ∈ log ∨ e.messageId ∈ s.intake.ids)
  published : ∀ t b, Entry.published t b ∈ log → ∃ c, s.intake.copies t = some c ∧ c.body = b
  tags : (log.filterMap Entry.publishedTag).Nodup
  request : ∀ t b, Entry.published t b ∈ log → ∃ req u, b = publishEvent req u ∧ RoundTrips req u
  call : ∀ t c e, s.intake.copies t = some c → Bears c.body e → Agrees e (s.intake.handlers t)
  owner : ∀ t m, (s.intake.handlers t).owns = some m → Entry.recorded t m ∈ log
  recorded : ∀ t m, Entry.recorded t m ∈ log →
    m ∈ s.intake.ids ∧ ∃ b, Entry.published t b ∈ log
  unique : ∀ t t' m, Entry.recorded t m ∈ log → Entry.recorded t' m ∈ log → t = t'
  rows : ∀ k ∈ s.intake.keys, ComesFrom s.intake log k
  loaded : ∀ p, ∀ ik ∈ (s.intake.reconcilers p).todo, ComesFrom s.intake log ik
  snapshots : ∀ w, ∀ x ∈ WorkerPhase.unposted (s.delivery.workers w).phase,
    x.event.messageId = x.attempt.messageId ∧ ComesFrom s.intake log x.event

/-- Nothing has happened at the start. -/
theorem traceInv_init : TraceInv World.init [] where
  copy _ _ h := by cases h
  published _ _ h := by cases h
  tags := List.nodup_nil
  request _ _ h := by cases h
  call _ _ _ h := by cases h
  owner _ _ h := by cases h
  recorded _ _ h := by cases h
  unique _ _ _ h := by cases h
  rows _ h := by cases h
  loaded _ _ h := by cases h
  snapshots _ _ h := by cases h

/-! ## One step of a call -/

section
variable {cfg : Settings} {now : Time} {subscribers : List Subscriber} {s s' : Intake}
  {attempts attempts' : List DeliveryAttempt} {t : Tag} {a : HandlerAction}

/-- The values of the INSERT are those of the event. SOURCE: app/consumer/rabbitmq.py:47-66 -/
theorem newEvent_of_insertValues {e : Event} {new : NewEvent}
    (h : insertValues ⟨.str e.messageId, .str e.eventType, .obj e.payload⟩ = some new) :
    new = ⟨e.messageId, e.eventType, .obj e.payload⟩ := by
  unfold insertValues at h
  dsimp only at h
  split at h
  · cases h
    rfl
  · cases h

/-- A call goes on with the event that it has started with.
SOURCE: app/consumer/rabbitmq.py:106-197 -/
theorem agrees_of_handlerStep {e : Event} {c : Copy} (hcopy : s.copies t = some c)
    (hbears : Bears c.body e) (hold : Agrees e (s.handlers t))
    (hprov : ∀ ev payload o, a = .enrich o → s.handlers t = .enriching ev →
      ev.payload = .obj payload → Provided ev.eventType payload o)
    (h : HandlerStep cfg now subscribers s attempts t a s' attempts') :
    Agrees e (s'.handlers t) := by
  cases h with
  | event hc _ hp =>
    rw [hcopy] at hc
    cases hc
    simpa [Agrees] using parseMessage_of_bears hbears hp
  | insert hh hv _ _ =>
    rw [hh] at hold
    have hraw : _ = RawEvent.mk _ _ _ := hold
    rw [hraw] at hv
    simpa [Agrees] using newEvent_of_insertValues hv
  | select hh =>
    rw [hh] at hold
    simpa [Agrees] using hold
  | commit hh hc =>
    obtain ⟨_, _, rfl⟩ := commitEvent_eq_some hc
    rw [hh] at hold
    simpa [Agrees] using hold
  | commitLost hh hc =>
    obtain ⟨_, _, rfl⟩ := commitEvent_eq_some hc
    simp [Agrees, raiseFrom]
  | ackEarly hh =>
    rw [hh] at hold
    simpa [Agrees] using hold
  | @enriched ev enriched hh =>
    rw [hh] at hold
    have hev : ev = ⟨e.messageId, e.eventType, .obj e.payload⟩ := hold
    have hx := enriched_of_provided (hprov ev e.payload _ rfl hh (by rw [hev]))
    simpa [Agrees, hev] using hx
  | loadStore hh _ =>
    rw [hh] at hold
    simpa [Agrees] using hold
  | _ => simp [Agrees, raiseFrom, crashHandler]

/-- A call owns an event that it has owned before, or whose row it commits in the step. -/
theorem owns_of_handlerStep {m : MessageId}
    (h : HandlerStep cfg now subscribers s attempts t a s' attempts')
    (ho : (s'.handlers t).owns = some m) :
    (s.handlers t).owns = some m ∨ (t, m) ∈ recordedBy s (.handler t a) := by
  cases h with
  | commit hh hc =>
    obtain ⟨_, _, rfl⟩ := commitEvent_eq_some hc
    simp only [Intake.setHandler_handlers, Function.update_self, Handler.owns,
      Option.some.injEq] at ho
    exact Or.inr (by simp [recordedBy, hh, ho])
  | commitLost hh hc =>
    obtain ⟨_, _, rfl⟩ := commitEvent_eq_some hc
    simp [raiseFrom, Handler.owns] at ho
  | ackEarly hh => exact Or.inl (by simpa [hh, Handler.owns] using ho)
  | enriched hh => exact Or.inl (by simpa [hh, Handler.owns] using ho)
  | fatal hh => exact Or.inl (by simpa [hh, Handler.owns] using ho)
  | loadStore hh _ => exact Or.inl (by simpa [hh, Handler.owns] using ho)
  | loadRecord hh _ => exact Or.inl (by simpa [hh, Handler.owns] using ho)
  | _ => simp [raiseFrom, crashHandler, Handler.owns] at ho

end

/-! ## One step of a row -/

section
variable {cfg : Settings} {s s' : World} {log : List Entry} {a : Action}

/-- The row keeps where it comes from. -/
theorem ComesFrom.step {k : IdempotencyKey} (h : ComesFrom s.intake log k)
    (hs : Program.step cfg s a = some s') : ComesFrom s'.intake (log ++ entries s a) k := by
  obtain ⟨t, c, e, hlog, hc, hbears, hrow⟩ := h
  obtain ⟨st, hc'⟩ := (callStep_of_step hs t).body hc
  exact ⟨t, ⟨c.body, st⟩, e, List.mem_append_left _ hlog, hc', hbears, hrow⟩

/-- What step 5 stores is made of the payload of the event of the row.
SOURCE: app/consumer/rabbitmq.py:184-195 -/
theorem RowOf.store {e : Event} {k ik : IdempotencyKey} {x : Json} {at' : Time} (h : RowOf e k) :
    RowOf e (storeEnrichment ik (.obj (withEnrichment e.payload x)) at' k) := by
  refine ⟨h.messageId, h.eventType, h.rawPayload, fun v hv => ?_⟩
  simp only [storeEnrichment, flushColumn] at hv
  split at hv
  · exact h.enrichedPayload v hv
  · cases hv
    exact ⟨x, rfl⟩

/-- Every version of a row has the event of the row. -/
theorem comesFrom_of_rowStep {k k' : IdempotencyKey} (hinv : TraceInv s log)
    (hk : ComesFrom s.intake log k) (h : RowStep s.intake s'.intake a k k') :
    ComesFrom s.intake log k' := by
  obtain ⟨t, c, e, hlog, hc, hbears, hrow⟩ := hk
  refine ⟨t, c, e, by rwa [h.messageId], hc, hbears, ?_⟩
  cases h with
  | same => exact hrow
  | @store u enriched _ _ _ hh _ =>
    -- The call that stores is the one that has recorded the message.
    have hown : (s.intake.handlers u).owns = some k.messageId := by rw [hh]; rfl
    have htag : u = t := hinv.unique u t _ (hinv.owner u _ hown) hlog
    have hcall : Agrees e (s.intake.handlers u) := htag ▸ hinv.call t c e hc hbears
    rw [hh] at hcall
    obtain ⟨_, x, rfl⟩ := hcall
    exact hrow.store
  | record _ => exact ⟨hrow.messageId, hrow.eventType, hrow.rawPayload, hrow.enrichedPayload⟩
  | flush _ =>
    constructor
    · simpa using hrow.messageId
    · simpa using hrow.eventType
    · simpa using hrow.rawPayload
    · simpa using hrow.enrichedPayload

/-- The copy whose call is about to commit a row bears the event of the row, and it was
published. SOURCE: app/consumer/rabbitmq.py:132-141 -/
theorem selected_of_traceInv {t : Tag} {ev : NewEvent} {receivedAt readAt : Time}
    {seen : List Subscriber} (hintake : IntakeInv cfg s.intake) (hinv : TraceInv s log)
    (hh : s.intake.handlers t = .selected ev receivedAt seen readAt) :
    ∃ c e, s.intake.copies t = some c ∧ Bears c.body e ∧
      ev = ⟨e.messageId, e.eventType, .obj e.payload⟩ ∧ Entry.published t c.body ∈ log := by
  have hbusy : s.intake.handlers t ≠ .idle := by rw [hh]; exact nofun
  have hsome : s.intake.copies t ≠ none := fun hc =>
    hbusy ((hintake.call t).idle_of_none hc)
  obtain ⟨c, hc⟩ := Option.ne_none_iff_exists'.1 hsome
  obtain ⟨e, hbears, hfrom⟩ := hinv.copy t c hc
  have hcall : Agrees e (s.intake.handlers t) := hinv.call t c e hc hbears
  rw [hh] at hcall
  have hev : ev = ⟨e.messageId, e.eventType, .obj e.payload⟩ := hcall
  refine ⟨c, e, hc, hbears, hev, hfrom.resolve_right ?_⟩
  -- The message is not recorded yet.
  have hnew := hintake.open_new t ev.messageId (by rw [hh]; rfl)
  rwa [hev] at hnew

end

/-! ## One step of the pipeline -/

section
variable {cfg : Settings} {s s' : World} {log : List Entry} {a : Action}

/-- Every copy bears an event that was published or is recorded.
SOURCE: app/consumer/rabbitmq.py:234-249 -/
theorem copy_of_step {t : Tag} {c' : Copy} (hinv : TraceInv s log)
    (hC : PublishesAndEnriches s a) (hs : step cfg s a = some s')
    (hc' : s'.intake.copies t = some c') :
    ∃ e, Bears c'.body e ∧
      (Entry.published t c'.body ∈ log ++ entries s a ∨ e.messageId ∈ s'.intake.ids) := by
  have hids := (keysStep_of_step hs).ids_subset
  have hold : ∀ c, s.intake.copies t = some c → c.body = c'.body →
      ∃ e, Bears c'.body e ∧
        (Entry.published t c'.body ∈ log ++ entries s a ∨ e.messageId ∈ s'.intake.ids) := by
    intro c hc hbody
    obtain ⟨e, hbears, hfrom⟩ := hinv.copy t c hc
    rw [hbody] at hbears hfrom
    exact ⟨e, hbears, hfrom.imp (List.mem_append_left _) fun hm => hids hm⟩
  cases callStep_of_step hs t with
  | still hc _ => exact hold c' (hc ▸ hc') rfl
  | published _ hpub _ =>
    rw [hpub] at hc'
    cases hc'
    obtain ⟨req, u, rfl, hround⟩ := hC
    exact ⟨_, bears_publishEvent hround,
      Or.inl (List.mem_append_right _ (List.mem_singleton.2 rfl))⟩
  | @reEnqueued p _ ik _ _ hp _ hpub _ =>
    rw [hpub] at hc'
    cases hc'
    obtain ⟨t', c, e, hlog, _, hbears, hrow⟩ := hinv.loaded p ik (by
      rw [hp]
      exact List.mem_cons_self)
    have hid := (hinv.recorded t' _ hlog).1
    rw [hrow.messageId] at hid
    exact ⟨e, bears_reEnqueueBody hrow hbears.messageId, Or.inr (hids hid)⟩
  | moved hstep =>
    obtain ⟨c, hc, hbody⟩ := hstep.body hc'
    exact hold c hc hbody

/-- A published copy keeps its body. -/
theorem published_of_step {t : Tag} {b : Body} (hinv : TraceInv s log)
    (hs : step cfg s a = some s') (h : Entry.published t b ∈ log ++ entries s a) :
    ∃ c, s'.intake.copies t = some c ∧ c.body = b := by
  obtain hlog | hnew := List.mem_append.1 h
  · obtain ⟨c, hc, rfl⟩ := hinv.published t b hlog
    obtain ⟨st, hc'⟩ := (callStep_of_step hs t).body hc
    exact ⟨_, hc', rfl⟩
  · obtain rfl := of_published_mem hnew
    cases worldStep_of_eq_some hs with
    | publish _ => exact ⟨_, Function.update_self _ _ _, rfl⟩

/-- A message is published under a new tag. -/
theorem tags_of_step (hinv : TraceInv s log) (hs : step cfg s a = some s') :
    ((log ++ entries s a).filterMap Entry.publishedTag).Nodup := by
  rw [List.filterMap_append]
  refine List.Nodup.append hinv.tags ?_ ?_
  · unfold entries
    split
    · simp [Entry.publishedTag]
    · simp [List.filterMap_map, Function.comp_def, Entry.publishedTag]
  · intro t hlog hnew
    obtain ⟨en, hen, htag⟩ := List.mem_filterMap.1 hnew
    obtain ⟨en', hen', htag'⟩ := List.mem_filterMap.1 hlog
    cases en with
    | recorded _ _ => cases htag
    | published t₁ b₁ =>
      cases en' with
      | recorded _ _ => cases htag'
      | published t₂ b₂ =>
        cases htag
        cases htag'
        obtain rfl := of_published_mem hen
        obtain ⟨c, hc, _⟩ := hinv.published _ _ hen'
        cases worldStep_of_eq_some hs with
        | publish hfree =>
          rw [hfree] at hc
          cases hc

/-- Every call agrees with the event of its copy. SOURCE: app/consumer/rabbitmq.py:106-195 -/
theorem call_of_step {t : Tag} {c' : Copy} {e : Event} (hintake : IntakeInv cfg s.intake)
    (hinv : TraceInv s log) (hC : PublishesAndEnriches s a) (hs : step cfg s a = some s')
    (hc' : s'.intake.copies t = some c') (hbears : Bears c'.body e) :
    Agrees e (s'.intake.handlers t) := by
  cases callStep_of_step hs t with
  | still hc hh =>
    rw [hh]
    exact hinv.call t c' e (hc ▸ hc') hbears
  | published hnone _ hh | reEnqueued _ hnone _ hh =>
    rw [hh, (hintake.call t).idle_of_none hnone]
    trivial
  | @moved b hstep =>
    obtain ⟨c, hc, hbody⟩ := hstep.body hc'
    rw [← hbody] at hbears
    refine agrees_of_handlerStep hc hbears (hinv.call t c e hc hbears) ?_ hstep
    rintro ev payload o rfl hh hpayload
    exact hC ev payload hh hpayload

/-- The call that owns an event has recorded it. SOURCE: app/consumer/rabbitmq.py:129-147 -/
theorem owner_of_step {t : Tag} {m : MessageId} (hinv : TraceInv s log)
    (hs : step cfg s a = some s') (ho : (s'.intake.handlers t).owns = some m) :
    Entry.recorded t m ∈ log ++ entries s a := by
  have hold : (s.intake.handlers t).owns = some m → Entry.recorded t m ∈ log ++ entries s a :=
    fun ho => List.mem_append_left _ (hinv.owner t m ho)
  cases callStep_of_step hs t with
  | still _ hh | published _ _ hh | reEnqueued _ _ _ hh => exact hold (hh ▸ ho)
  | moved hstep =>
    obtain ho | hnew := owns_of_handlerStep hstep ho
    · exact hold ho
    · exact List.mem_append_right _ (recorded_mem_iff.2 hnew)

/-- A recorded message has a row, and its copy was published. -/
theorem recorded_of_step {t : Tag} {m : MessageId} (hintake : IntakeInv cfg s.intake)
    (hinv : TraceInv s log) (hs : step cfg s a = some s')
    (h : Entry.recorded t m ∈ log ++ entries s a) :
    m ∈ s'.intake.ids ∧ ∃ b, Entry.published t b ∈ log ++ entries s a := by
  obtain hlog | hnew := List.mem_append.1 h
  · obtain ⟨hm, b, hb⟩ := hinv.recorded t m hlog
    exact ⟨(keysStep_of_step hs).ids_subset hm, b, List.mem_append_left _ hb⟩
  · rw [recorded_mem_iff] at hnew
    obtain ⟨_, _, _, _, _, _, hh, _⟩ := of_mem_recordedBy hnew
    obtain ⟨c, _, _, _, _, hpub⟩ := selected_of_traceInv hintake hinv hh
    exact ⟨mem_ids_of_recordedBy hs hnew, c.body, List.mem_append_left _ hpub⟩

/-- Only one call records a message. -/
theorem unique_of_step {t t' : Tag} {m : MessageId} (hintake : IntakeInv cfg s.intake)
    (hinv : TraceInv s log) (h : Entry.recorded t m ∈ log ++ entries s a)
    (h' : Entry.recorded t' m ∈ log ++ entries s a) : t = t' := by
  have hnot : ∀ t₁ t₂, Entry.recorded t₁ m ∈ log → Entry.recorded t₂ m ∉ entries s a := by
    intro t₁ t₂ hlog hnew
    obtain ⟨_, ev, _, _, _, _, hh, rfl⟩ := of_mem_recordedBy (recorded_mem_iff.1 hnew)
    exact hintake.open_new t₂ ev.messageId (by rw [hh]; rfl) (hinv.recorded t₁ _ hlog).1
  obtain hlog | hnew := List.mem_append.1 h
  · obtain hlog' | hnew' := List.mem_append.1 h'
    · exact hinv.unique t t' m hlog hlog'
    · exact absurd hnew' (hnot t t' hlog)
  · obtain hlog' | hnew' := List.mem_append.1 h'
    · exact absurd hnew (hnot t' t hlog')
    · obtain ⟨_, _, _, _, _, ha, _⟩ := of_mem_recordedBy (recorded_mem_iff.1 hnew)
      obtain ⟨_, _, _, _, _, ha', _⟩ := of_mem_recordedBy (recorded_mem_iff.1 hnew')
      obtain rfl | rfl := ha
      · obtain h | h := ha' <;> cases h
        rfl
      · obtain h | h := ha' <;> cases h
        rfl

/-- Every row comes from the copy whose call has recorded it. SOURCE: app/consumer/rabbitmq.py:47-71
-/
theorem rows_of_step {k' : IdempotencyKey} (hintake : IntakeInv cfg s.intake)
    (hinv : TraceInv s log) (hs : step cfg s a = some s') (hk' : k' ∈ s'.intake.keys) :
    ComesFrom s'.intake (log ++ entries s a) k' := by
  obtain ⟨k, hk, hrow⟩ | ⟨t, ev, _, _, _, hh, rfl⟩ := (keysStep_of_step hs).of_mem hk'
  · exact (comesFrom_of_rowStep hinv (hinv.rows k hk) hrow).step hs
  · have hnew : ev.messageId ∉ s.intake.ids := hintake.open_new t _ (by rw [hh]; rfl)
    obtain ⟨t, ev, receivedAt, _, _, hh, hk, hrec⟩ := recordedBy_of_new hs hk' hnew
    obtain ⟨c, e, hc, hbears, rfl, _⟩ := selected_of_traceInv hintake hinv hh
    obtain ⟨st, hc'⟩ := (callStep_of_step hs t).body hc
    rw [hk]
    refine ⟨t, ⟨c.body, st⟩, e, ?_, hc', hbears, rfl, rfl, rfl, nofun⟩
    refine List.mem_append_right _ (recorded_mem_iff.2 ?_)
    rw [hrec]
    exact List.mem_singleton_self _

/-- One step keeps the trace of the events. SOURCE: app/consumer/rabbitmq.py:106-265,
app/delivery/worker.py:58-123 -/
theorem traceInv_step (hintake : IntakeInv cfg s.intake) (hinv : TraceInv s log)
    (hC : PublishesAndEnriches s a) (hs : step cfg s a = some s') :
    TraceInv s' (log ++ entries s a) where
  copy _ _ hc' := copy_of_step hinv hC hs hc'
  published _ _ h := published_of_step hinv hs h
  tags := tags_of_step hinv hs
  request t b h := by
    obtain hlog | hnew := List.mem_append.1 h
    · exact hinv.request t b hlog
    · obtain rfl := of_published_mem hnew
      exact hC
  call _ _ _ hc' hbears := call_of_step hintake hinv hC hs hc' hbears
  owner _ _ ho := owner_of_step hinv hs ho
  recorded _ _ h := recorded_of_step hintake hinv hs h
  unique _ _ _ h h' := unique_of_step hintake hinv h h'
  rows _ hk' := rows_of_step hintake hinv hs hk'
  loaded p ik hik := by
    obtain hold | ⟨_, _, _, hrow, _⟩ := todo_of_step hs hik
    · exact (hinv.loaded p ik hold).step hs
    · exact (hinv.rows ik hrow).step hs
  snapshots w x hx := by
    obtain hx | ⟨_, _, id, hsnap⟩ := unposted_of_step hs hx
    · obtain ⟨hid, hfrom⟩ := hinv.snapshots w x hx
      exact ⟨hid, hfrom.step hs⟩
    · obtain ⟨_, _, hk, hid⟩ := of_snapshotOf hsnap
      exact ⟨hid, (hinv.rows x.event hk).step hs⟩

end

/-! ## The result -/

/-- The values of the request, apart from the key of the enrichment. -/
def KeepsFields (fields : List (PyStr × Json)) (req : EventPublishRequest) : Prop :=
  ∀ key, key ≠ enrichmentKey → Json.get fields key = Json.get req.payload key

/-- The POST carries the values of the request, as arguments of `deliver` and in the bytes
that `deliver` sends. SOURCE: app/delivery/worker.py:118-123, app/delivery/sender.py:49-54 -/
structure FromRequest (p : Post) (req : EventPublishRequest) (u : Uuid) : Prop where
  messageId : p.messageId = publishedId req u
  eventType : p.eventType = req.eventType
  payload : ∃ fields, p.payload = .obj fields ∧ KeepsFields fields req
  /-- the body is the text of an object with three keys -/
  body : ∀ hmacSha256 nowMs webhook, webhookRequest hmacSha256 p nowMs = some webhook →
    ∃ fields, KeepsFields fields req ∧ webhook.body =
      (Json.obj [(py "delivery_id", .str p.deliveryId.str), (py "event_type", .str req.eventType),
        (py "payload", .obj fields)]).dumps .compact

/-- What is said of the arguments of `deliver` holds of the bytes as well.
SOURCE: app/delivery/sender.py:49-54 -/
theorem fromRequest_of_arguments {p : Post} {req : EventPublishRequest} {u : Uuid}
    (hm : p.messageId = publishedId req u) (ht : p.eventType = req.eventType)
    (hp : ∃ fields, p.payload = .obj fields ∧ KeepsFields fields req) : FromRequest p req u := by
  refine ⟨hm, ht, hp, fun hmacSha256 nowMs webhook hweb => ?_⟩
  obtain ⟨fields, hfields, hkeeps⟩ := hp
  refine ⟨fields, hkeeps, ?_⟩
  rw [body_webhookRequest hweb, bodyData, ht, hfields]

/-- The trace of the events holds after every run. -/
theorem traceInv_of_run {cfg : Settings} {as : List Action} {s : World}
    (h : run (step cfg) World.init as = some s)
    (hC : Meets (step cfg) PublishesAndEnriches World.init as) : TraceInv s (entriesOf cfg as) := by
  refine history_induct_if (I := TraceInv) traceInv_init ?_ h hC
  intro s log a s' hreach hinv hC hs
  exact traceInv_step (intakeInv_of_reachable hreach.reachable) hinv hC hs

/-- Every POST for a message comes from one publish, the one whose call has committed the key
row of the message. SOURCE: app/api/events.py:23-43, app/consumer/rabbitmq.py:106-265,
app/delivery/worker.py:101-123 -/
theorem posts_come_from_one_publish (cfg : Settings) (as : List Action) (s s' : World)
    (a : Action) (p : Post) (h : run (step cfg) World.init as = some s)
    (hC : Meets (step cfg) PublishesAndEnriches World.init as) (hs : step cfg s a = some s')
    (hp : s'.delivery.posts = s.delivery.posts ++ [p]) :
    ((entriesOf cfg as).filterMap Entry.publishedTag).Nodup ∧
      ∃ t req u, Entry.published t (publishEvent req u) ∈ entriesOf cfg as ∧ RoundTrips req u ∧
        FromRequest p req u ∧
        ∀ t', Entry.recorded t' p.messageId ∈ entriesOf cfg as ↔ t' = t := by
  have hinv := traceInv_of_run h hC
  refine ⟨hinv.tags, ?_⟩
  obtain ⟨w, x, sub, todo, _, hph, _, rfl⟩ := post_of_step hs hp
  have hx : x ∈ WorkerPhase.unposted (s.delivery.workers w).phase := by
    rw [hph]
    exact List.mem_cons_self
  obtain ⟨hid, t, c, e, hrec, hc, hbears, hrow⟩ := hinv.snapshots w x hx
  -- The copy of the call is a published one.
  obtain ⟨_, b, hpub⟩ := hinv.recorded t _ hrec
  obtain ⟨c', hc', rfl⟩ := hinv.published t b hpub
  rw [hc] at hc'
  cases hc'
  obtain ⟨req, u, hbody, hround⟩ := hinv.request t _ hpub
  rw [hbody] at hpub hbears
  obtain rfl : e = requestEvent req u := hbears.unique (bears_publishEvent hround)
  have hm : (postOf x sub).messageId = x.event.messageId := hid.symm
  refine ⟨t, req, u, hpub, hround, fromRequest_of_arguments (hm.trans hrow.messageId)
    hrow.eventType hrow.delivered, fun t' => ?_⟩
  · rw [hm]
    constructor
    · intro hrec'
      exact hinv.unique t' t _ hrec' hrec
    · rintro rfl
      exact hrec

/-! ## A concrete history -/

/-- Two requests share a `message_id`. -/
def firstRequest : EventPublishRequest where
  eventType := py "e"
  payload := [(py "a", .int 1)]
  messageId := some (py "shared")
  event_type_length := by decide
  event_type_unicode := by decide
  payload_size := by decide
  message_id_length := by decide
  message_id_unicode := by decide
  payload_floats := by decide

def secondRequest : EventPublishRequest where
  eventType := py "f"
  payload := [(py "b", .int 2)]
  messageId := some (py "shared")
  event_type_length := by decide
  event_type_unicode := by decide
  payload_size := by decide
  message_id_length := by decide
  message_id_unicode := by decide
  payload_floats := by decide

def draws : MockDraws := ⟨2 ^ 52, 0, ascii "0.85", py "'e'"⟩

/-- The first copy is accepted, the second one is a duplicate. -/
def publishedTwice : List Action :=
  [.subscriber 0 (.create ⟨1⟩ (py "http://a") (py "s")),
    .publish 0 (publishEvent firstRequest ⟨8⟩), .publish 1 (publishEvent secondRequest ⟨9⟩)] ++
  acceptance 0 ⟨2⟩ [⟨3⟩] ++ [.start ⟨4⟩, .insert, .ack].map (.handler 1)

/-- The enrichment of the first event is stored, and its attempt is claimed. -/
def enrichedAndFetched : List Action :=
  [.handler 0 .load, .handler 0 .write] ++ claimAndFetch

theorem publishedTwice_enabled :
    (run (step .default) World.init publishedTwice).isSome = true := by decide

def duplicateSkipped : World :=
  (run (step .default) World.init publishedTwice).get publishedTwice_enabled

def mockOutcome : EnrichOutcome := mockEnrich (py "e") [(py "a", .int 1)] draws

theorem enrichedAndFetched_enabled :
    (run (step .default) duplicateSkipped
      (.handler 0 (.enrich mockOutcome) :: enrichedAndFetched)).isSome = true := by decide

/-- An action that neither publishes nor enriches. -/
theorem publishesAndEnriches_of_ne {s : World} {a : Action} (hp : ∀ t b, a ≠ .publish t b)
    (he : ∀ t o, a ≠ .handler t (.enrich o)) : PublishesAndEnriches s a := by
  unfold PublishesAndEnriches
  split
  · exact absurd rfl (hp _ _)
  · exact absurd rfl (he _ _)
  · trivial

/-- Both messages are published by `publish_event`. -/
theorem meets_publishedTwice :
    Meets (step .default) PublishesAndEnriches World.init publishedTwice := by
  refine Meets.of_forall fun a ha m => ?_
  cases a with
  | publish t b =>
    have hb : (t = 0 ∧ b = publishEvent firstRequest ⟨8⟩) ∨
        (t = 1 ∧ b = publishEvent secondRequest ⟨9⟩) := by
      simpa [publishedTwice, acceptance] using ha
    obtain ⟨_, rfl⟩ | ⟨_, rfl⟩ := hb
    · exact ⟨firstRequest, ⟨8⟩, rfl, by unfold RoundTrips; decide⟩
    · exact ⟨secondRequest, ⟨9⟩, rfl, by unfold RoundTrips; decide⟩
  | handler t b =>
    refine publishesAndEnriches_of_ne (by simp) fun t' o heq => ?_
    rw [heq] at ha
    simp [publishedTwice, acceptance] at ha
  | _ => trivial

/-- The enrichment is one of the mock provider. -/
theorem meets_enriched : Meets (step .default) PublishesAndEnriches duplicateSkipped
    (.handler 0 (.enrich mockOutcome) :: enrichedAndFetched) := by
  constructor
  · intro ev payload hh hpayload
    have hev : duplicateSkipped.intake.handlers 0 =
        .enriching ⟨py "shared", py "e", .obj [(py "a", .int 1)]⟩ := rfl
    rw [hev] at hh
    cases hh
    cases hpayload
    exact Or.inl ⟨draws, rfl⟩
  · intro s' _
    refine Meets.of_forall fun a ha m => ?_
    refine publishesAndEnriches_of_ne ?_ ?_
    · rintro t b rfl
      simp [enrichedAndFetched, claimAndFetch, claimBatch] at ha
    · rintro t o rfl
      simp [enrichedAndFetched, claimAndFetch, claimBatch] at ha

def wholeHistory : List Action :=
  publishedTwice ++ .handler 0 (.enrich mockOutcome) :: enrichedAndFetched

/-- The POST carries the first payload and its enrichment. -/
theorem posts_come_from_one_publish_sharedId :
    ∃ (p : Post) (t : Tag) (req : EventPublishRequest) (u : Uuid),
      p.payload = .obj
        [(py "a", .int 1), (enrichmentKey, mockEnrichment (py "e") [(py "a", .int 1)] draws)] ∧
      Entry.published t (publishEvent req u) ∈ entriesOf .default wholeHistory ∧
      FromRequest p req u := by
  have hrun := run_append_eq_some.2 ⟨_, (Option.some_get publishedTwice_enabled).symm,
    (Option.some_get enrichedAndFetched_enabled).symm⟩
  have hC := Meets.append (Option.some_get publishedTwice_enabled).symm meets_publishedTwice
    meets_enriched
  obtain ⟨_, t, req, u, hpub, _, hfrom, _⟩ := posts_come_from_one_publish .default wholeHistory _ _
    (.worker 0 .post) _ hrun hC rfl rfl
  exact ⟨_, t, req, u, rfl, hpub, hfrom⟩

end EventPipeline.Analysis

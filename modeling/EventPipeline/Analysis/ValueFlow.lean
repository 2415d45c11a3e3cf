import EventPipeline.Interface.CallSteps
import EventPipeline.Interface.KeyRows
import EventPipeline.Analysis.WebhookId
import EventPipeline.Analysis.EventReads

/-!
# Where payloads come from

The pipeline moves payloads between copies, calls, rows, cycles and workers, and makes none up:
every raw payload has come in with a message, and every enriched one from a provider. The
invariant is about two arbitrary properties of JSON values: what holds of all that comes in holds
of all that is stored, shown, re-enqueued and POSTed.
-/

set_option autoImplicit false

namespace EventPipeline.Analysis

open EventPipeline.Model EventPipeline.Program EventPipeline.Interface EventPipeline.Computation

/-- The payload that `handle_message` takes from a body. SOURCE: app/consumer/rabbitmq.py:128 -/
def payloadOf (data : List (PyStr × Json)) : Json :=
  (Json.get data (py "payload")).getD (.obj [])

section
variable (P Q : Json → Prop)

def BodyCarries (b : Body) : Prop := ∀ data, b.loads = .value (.obj data) → P (payloadOf data)

structure RowCarries (k : IdempotencyKey) : Prop where
  raw : P k.rawPayload
  enriched : ∀ v, k.enrichedPayload = some v → Q v

/-- SOURCE: app/consumer/rabbitmq.py:125-195 -/
def CallCarries : Handler → Prop
  | .parsed ev => P ev.payload
  | .inserted ev _ | .selected ev _ _ _ | .committed ev | .enriching ev => P ev.payload
  | .storing _ enriched _ | .storeLoaded _ enriched _ _ => Q enriched
  | _ => True

/-- What a message brings in satisfies `P`, and what a provider gives satisfies `Q`. -/
def Admits (_ : World) : Action → Prop
  | .publish _ body => BodyCarries P body
  | .handler _ (.enrich (.result enriched)) => Q (.obj enriched)
  | _ => True

/-- The raw payloads of the state satisfy `P`, and the enriched ones `Q`. -/
structure FlowInv (s : World) : Prop where
  copy : ∀ t c, s.intake.copies t = some c → BodyCarries P c.body
  call : ∀ t, CallCarries P Q (s.intake.handlers t)
  row : ∀ k ∈ s.intake.keys, RowCarries P Q k
  loaded : ∀ p, ∀ ik ∈ (s.intake.reconcilers p).todo, RowCarries P Q ik
  claimed : ∀ w, ∀ x ∈ (s.delivery.workers w).phase.batch, RowCarries P Q x.event
  posted : ∀ p ∈ s.delivery.posts, P p.payload ∨ Q p.payload

end

section
variable {P Q : Json → Prop} {cfg : Settings} {s s' : World} {a : Action}

/-- `ik.enriched_payload or ik.raw_payload`. SOURCE: app/delivery/worker.py:120 -/
theorem RowCarries.delivered {k : IdempotencyKey} (h : RowCarries P Q k) :
    P (deliveredPayload k) ∨ Q (deliveredPayload k) := by
  unfold deliveredPayload
  split
  · rename_i v hv
    split
    · exact Or.inr (h.enriched v hv)
    · exact Or.inl h.raw
  · exact Or.inl h.raw

/-- A re-enqueued copy carries the raw payload. SOURCE: app/consumer/rabbitmq.py:236-242 -/
theorem RowCarries.reEnqueued {k : IdempotencyKey} (h : RowCarries P Q k) :
    BodyCarries P (reEnqueueBody k) := by
  intro data hdata
  cases hdata
  have hget : payloadOf [(py "message_id", .str k.messageId), (py "event_type", .str k.eventType),
      (py "payload", k.rawPayload)] = k.rawPayload := by
    have hne : py "message_id" ≠ py "payload" ∧ py "event_type" ≠ py "payload" := by decide
    simp [payloadOf, Json.get, hne]
  exact hget.symm ▸ h.raw

/-- SOURCE: app/consumer/rabbitmq.py:108-128 -/
theorem payload_of_parseMessage {b : Body} {u : Uuid} {ev : RawEvent} (h : BodyCarries P b)
    (hp : parseMessage cfg b u = .event ev) : P ev.payload := by
  unfold parseMessage at hp
  split at hp
  · cases hp
  · split at hp
    · cases hp
    · cases hp
    · rename_i data hdata
      cases hp
      exact h data hdata
    · cases hp

/-- The INSERT stores the payload that was parsed. SOURCE: app/consumer/rabbitmq.py:47-66 -/
theorem payload_of_insertValues {ev : RawEvent} {new : NewEvent} (h : insertValues ev = some new) :
    new.payload = ev.payload := by
  unfold insertValues at h
  split at h
  · split at h
    · cases h
      rfl
    · cases h
  · cases h

/-- A call goes on with a payload that has the property. SOURCE: app/consumer/rabbitmq.py:106-197 -/
theorem callCarries_of_handlerStep {now : Time} {subscribers : List Subscriber} {i i' : Intake}
    {attempts attempts' : List DeliveryAttempt} {t : Tag} {b : HandlerAction}
    (hcopy : ∀ c, i.copies t = some c → BodyCarries P c.body) (hold : CallCarries P Q (i.handlers t))
    (hin : ∀ enriched, b = .enrich (.result enriched) → Q (.obj enriched))
    (h : HandlerStep cfg now subscribers i attempts t b i' attempts') :
    CallCarries P Q (i'.handlers t) := by
  cases h with
  | event hc _ hp => simpa [CallCarries] using payload_of_parseMessage (hcopy _ hc) hp
  | insert hh hv _ _ =>
    rw [hh] at hold
    have hpayload := payload_of_insertValues hv
    simpa [CallCarries, hpayload] using hold
  | select hh =>
    rw [hh] at hold
    simpa [CallCarries] using hold
  | commit hh hc =>
    obtain ⟨_, _, rfl⟩ := commitEvent_eq_some hc
    rw [hh] at hold
    simpa [CallCarries] using hold
  | commitLost hh hc =>
    obtain ⟨_, _, rfl⟩ := commitEvent_eq_some hc
    simp [CallCarries, raiseFrom]
  | ackEarly hh =>
    rw [hh] at hold
    simpa [CallCarries] using hold
  | @enriched ev enriched hh => simpa [CallCarries] using hin enriched rfl
  | loadStore hh _ =>
    rw [hh] at hold
    simpa [CallCarries] using hold
  | _ => simp [CallCarries, raiseFrom, crashHandler]

/-- One step keeps what the calls carry. SOURCE: app/consumer/rabbitmq.py:106-195 -/
theorem call_of_flowInv (hinv : FlowInv P Q s) (hC : Admits P Q s a) (hs : step cfg s a = some s')
    (t : Tag) : CallCarries P Q (s'.intake.handlers t) := by
  cases callStep_of_step hs t with
  | still _ hh | published _ _ hh | reEnqueued _ _ _ hh =>
    rw [hh]
    exact hinv.call t
  | moved h =>
    refine callCarries_of_handlerStep (fun c hc => hinv.copy t c hc) (hinv.call t) ?_ h
    rintro enriched rfl
    exact hC

/-- One step keeps what the queue carries. SOURCE: app/consumer/rabbitmq.py:234-249 -/
theorem copy_of_flowInv (hinv : FlowInv P Q s) (hC : Admits P Q s a) (hs : step cfg s a = some s')
    {t : Tag} {c' : Copy} (hc' : s'.intake.copies t = some c') : BodyCarries P c'.body := by
  cases callStep_of_step hs t with
  | still hc _ => exact hinv.copy t c' (hc ▸ hc')
  | published _ hpub _ =>
    rw [hpub] at hc'
    cases hc'
    exact hC
  | @reEnqueued p _ ik todo dirty hp _ hpub _ =>
    rw [hpub] at hc'
    cases hc'
    exact (hinv.loaded p ik (by rw [hp]; exact List.mem_cons_self)).reEnqueued
  | moved h =>
    obtain ⟨c, hc, hbody⟩ := h.body hc'
    exact hbody ▸ hinv.copy t c hc

/-- The writers of a row store a payload that a call holds.
SOURCE: app/consumer/rabbitmq.py:191-195 -/
theorem RowCarries.step {k k' : IdempotencyKey} (hinv : FlowInv P Q s) (hk : RowCarries P Q k)
    (h : RowStep s.intake s'.intake a k k') : RowCarries P Q k' := by
  cases h with
  | same => exact hk
  | @store t enriched _ _ _ hh _ =>
    have hcall := hinv.call t
    rw [hh] at hcall
    refine ⟨hk.raw, fun v hv => ?_⟩
    simp only [storeEnrichment, flushColumn] at hv
    split at hv
    · exact hk.enriched v hv
    · cases hv
      exact hcall
  | record _ => exact ⟨hk.raw, hk.enriched⟩
  | flush _ => exact ⟨by simpa using hk.raw, by simpa using hk.enriched⟩

/-- One step makes no value up. SOURCE: app/consumer/rabbitmq.py:106-265,
app/delivery/worker.py:101-123 -/
theorem flowInv_step (hinv : FlowInv P Q s) (hC : Admits P Q s a) (hs : step cfg s a = some s') :
    FlowInv P Q s' where
  copy _ _ hc' := copy_of_flowInv hinv hC hs hc'
  call := call_of_flowInv hinv hC hs
  row k' hk' := by
    obtain ⟨k, hk, hrow⟩ | ⟨t, ev, _, _, _, hh, rfl⟩ := (keysStep_of_step hs).of_mem hk'
    · exact (hinv.row k hk).step hinv hrow
    · have hcall := hinv.call t
      rw [hh] at hcall
      exact ⟨hcall, by simp [newKey]⟩
  loaded p ik hik := by
    obtain hold | ⟨_, _, _, hrow, _⟩ := todo_of_step hs hik
    · exact hinv.loaded p ik hold
    · exact hinv.row ik hrow
  claimed w x hx := by
    obtain hx | ⟨_, _, _, _, _, hsnap, _⟩ := batch_of_step hs hx
    · exact hinv.claimed w x hx
    · exact hinv.row x.event (of_snapshotOf hsnap).2.2.1
  posted p hp := by
    obtain hp | ⟨w, x, sub, hx, rfl⟩ := mem_posts_of_step hs hp
    · exact hinv.posted p hp
    · exact (hinv.claimed w x hx).delivered

/-- No value is made up in a run whose messages and results are admitted. -/
theorem flowInv_of_reachableIf (h : ReachableIf (step cfg) (Admits P Q) World.init s) :
    FlowInv P Q s := by
  refine h.induct (I := FlowInv P Q) ?_ fun s a s' _ hinv hC hs => flowInv_step hinv hC hs
  refine ⟨fun _ _ h => ?_, fun _ => trivial, fun _ h => absurd h List.not_mem_nil,
    fun _ _ h => absurd h List.not_mem_nil, fun _ _ h => absurd h List.not_mem_nil,
    fun _ h => absurd h List.not_mem_nil⟩
  cases h

end

/-! ## The result -/

/-- The payload of a message that was published. -/
def PublishedIn (as : List Action) (v : Json) : Prop :=
  ∃ t body data, .publish t body ∈ as ∧ body.loads = .value (.obj data) ∧ v = payloadOf data

/-- The enriched payload that a provider has returned. -/
def ReturnedIn (as : List Action) (v : Json) : Prop :=
  ∃ t enriched, .handler t (.enrich (.result enriched)) ∈ as ∧ v = .obj enriched

structure PayloadsComeIn (as : List Action) (s : World) : Prop where
  /-- what is stored, also when it is never shown -/
  stored : ∀ k ∈ s.intake.keys, PublishedIn as k.rawPayload ∧
    ∀ v, k.enrichedPayload = some v → ReturnedIn as v
  posted : ∀ p ∈ s.delivery.posts, PublishedIn as p.payload ∨ ReturnedIn as p.payload
  shown : ∀ m r, getEvent m s.intake.keys = .found r → PublishedIn as (.obj r.rawPayload) ∧
    ∀ e, r.enrichedPayload = some e → ReturnedIn as (.obj e)
  queued : ∀ t c, s.intake.copies t = some c → BodyCarries (PublishedIn as) c.body

/-- In every run, whatever its messages are and however its steps interleave, fail and crash.
SOURCE: app/consumer/rabbitmq.py:106-265, app/delivery/worker.py:101-123, app/api/events.py:49-59 -/
theorem payloads_come_in (cfg : Settings) (as : List Action) (s : World)
    (h : run (step cfg) World.init as = some s) : PayloadsComeIn as s := by
  have hadmits : ∀ a ∈ as, ∀ m, Admits (PublishedIn as) (ReturnedIn as) m a := by
    intro a ha m
    cases a with
    | publish t body => exact fun data hdata => ⟨t, body, data, ha, hdata, rfl⟩
    | handler t b =>
      cases b with
      | enrich o =>
        cases o with
        | result enriched => exact ⟨t, enriched, ha, rfl⟩
        | _ => trivial
      | _ => trivial
    | _ => trivial
  have hinv := flowInv_of_reachableIf (ReachableIf.of_forall h hadmits)
  refine ⟨fun k hk => ⟨(hinv.row k hk).raw, (hinv.row k hk).enriched⟩, hinv.posted,
    fun m r hr => ?_, hinv.copy⟩
  obtain ⟨k, hk, _, _, hshows⟩ := shows_of_found ⟨as, h⟩ hr
  refine ⟨hshows.rawPayload ▸ (hinv.row k hk).raw, fun e he => (hinv.row k hk).enriched _ ?_⟩
  rw [← hshows.enrichedPayload, he]
  rfl

/-- A message that is no publish of the API, with no payload: the default is POSTed. -/
def bareMessage : List Action :=
  [.subscriber 0 (.create ⟨1⟩ (py "http://a") (py "s")),
    .publish 0 (.ofDumps (.obj [(py "message_id", .str (py "m"))]))] ++
  acceptance 0 ⟨2⟩ [⟨3⟩] ++ claimBatch 0 0 [⟨3⟩] ++ deliverNext 0 (.response 200 none) 0

theorem bareMessage_enabled : (run (step .default) World.init bareMessage).isSome = true := by
  decide

/-- The payload of the POST is the default of the field. SOURCE: app/consumer/rabbitmq.py:127 -/
theorem payloads_come_in_bareMessage : ∃ p ∈
    ((run (step .default) World.init bareMessage).get bareMessage_enabled).delivery.posts,
      p.payload = .obj [] ∧
        (PublishedIn bareMessage p.payload ∨ ReturnedIn bareMessage p.payload) :=
  ⟨_, List.Mem.head _, rfl, (payloads_come_in .default bareMessage _
    (Option.some_get bareMessage_enabled).symm).posted _ (List.Mem.head _)⟩

end EventPipeline.Analysis

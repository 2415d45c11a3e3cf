import EventPipeline.Analysis.ExactlyOnceAcceptance
import EventPipeline.Interface.MessageCallSteps

/-!
# Malformed messages

The handler guards against a large body and against the exceptions of the decoder. A body that
is decoded to anything but an object with a string `message_id`, a string `event_type` and an
object `payload` (each of them may be missing) goes on: into an attribute access, a parameter of
the INSERT, or the dict merge of the provider, which is after the commit and the ACK.
-/

set_option autoImplicit false

namespace EventPipeline.Analysis

open EventPipeline.Model EventPipeline.Program EventPipeline.Interface EventPipeline.Computation

/-! ## Safe handling -/

/-- The environment of a call: the tables satisfy their constraints, the generated identifiers
are new, and the enrichment ends as the provider allows. SOURCE: app/db/models.py:46-90 -/
structure Admissible (p : Provider) (e : CallEnv) (keys : List IdempotencyKey)
    (attempts : List DeliveryAttempt) : Prop where
  subscribers_nodup : (e.subscribers.map Subscriber.id).Nodup
  ids_length : e.ids.length = (e.subscribers.filter Subscriber.receives).length
  ids_nodup : (attempts.map DeliveryAttempt.id ++ e.ids).Nodup
  pairs_nodup : (attempts.map DeliveryAttempt.pair).Nodup
  foreignKey : ∀ row ∈ attempts, row.messageId ∈ keys.map IdempotencyKey.messageId
  provided : ∀ eventType payload, p.ends eventType payload (e.enrich eventType payload)

/-- The provider can still process the payload of the row. -/
def Enrichable (p : Provider) (row : IdempotencyKey) : Prop :=
  ∃ r, p.ends row.eventType row.rawPayload (.result r)

/-- The call returns, the message is ACKed, and no row that the call has added stays in
`received` with a payload that the provider can never process. -/
structure HandledSafely (p : Provider) (keys : List IdempotencyKey) (r : CallResult) : Prop where
  returns : r.escaped = false
  acked : r.copy = .acked
  enrichable : ∀ row ∈ addedRows IdempotencyKey.messageId keys r.keys, row.status = .received →
    Enrichable p row

/-- The three values have the JSON types that the handler relies on. A falsy `message_id` is
replaced. SOURCE: app/consumer/rabbitmq.py:125-127 -/
structure FieldsTyped (data : List (PyStr × Json)) : Prop where
  messageId : ∀ v, Json.get data (py "message_id") = some v → v.truthy = true → ∃ m, v = .str m
  eventType : ∀ v, Json.get data (py "event_type") = some v → ∃ e, v = .str e
  payload : ∀ v, Json.get data (py "payload") = some v → ∃ fields, v = .obj fields

/-- The body is discarded, or it is an object with values of these types. -/
def Handleable (cfg : Settings) (body : Body) : Prop :=
  cfg.consumerMaxMessageBytes < body.size ∨ body.loads = .decodeError ∨
    ∃ data, body.loads = .value (.obj data) ∧ FieldsTyped data

/-! ## The values of the INSERT -/

section
variable {cfg : Settings} {body : Body} {u : Uuid} {ev : RawEvent} {new : NewEvent}

/-- The parameters of the INSERT are accepted when the two text values are strings. -/
theorem bind_permissive {m e : PyStr} (hm : ev.messageId = .str m) (he : ev.eventType = .str e) :
    ColumnRules.permissive.bind ev = some ⟨m, e, ev.payload⟩ := by
  simp only [ColumnRules.bind, hm, he, ColumnRules.permissive, Bool.and_self, if_true]

/-- Values that every column takes are those of the event. SOURCE: app/consumer/rabbitmq.py:47-66 -/
theorem of_bind_eq_some (h : ColumnRules.permissive.bind ev = some new) :
    ev.messageId = .str new.messageId ∧ ev.eventType = .str new.eventType ∧
      ev.payload = new.payload := by
  unfold ColumnRules.bind at h
  split at h
  · rename_i m e hm he
    simp only [ColumnRules.permissive, Bool.and_self, if_true] at h
    cases h
    exact ⟨hm, he, rfl⟩
  · cases h

/-- A body that is neither oversized nor undecodable is parsed to an event when it is an
object. SOURCE: app/consumer/rabbitmq.py:108-127 -/
theorem parseMessage_obj {data : List (PyStr × Json)}
    (hsize : ¬ cfg.consumerMaxMessageBytes < body.size) (hdata : body.loads = .value (.obj data)) :
    parseMessage cfg body u = .event
      { messageId :=
          if ((Json.get data (py "message_id")).getD .null).truthy then
            (Json.get data (py "message_id")).getD .null
          else .str u.str
        eventType := (Json.get data (py "event_type")).getD (.str (py "unknown"))
        payload := (Json.get data (py "payload")).getD (.obj []) } := by
  rw [parseMessage, if_neg hsize, hdata]

/-- A body that is too large or no JSON is discarded. SOURCE: app/consumer/rabbitmq.py:109-124 -/
theorem parseMessage_discard (h : cfg.consumerMaxMessageBytes < body.size ∨
    body.loads = .decodeError) : parseMessage cfg body u = .discard := by
  unfold parseMessage
  obtain hsize | hloads := h
  · rw [if_pos hsize]
  · rw [hloads]
    split <;> rfl

end

/-- The values of an object with the right types are accepted, with an object payload. -/
theorem FieldsTyped.bind {cfg : Settings} {body : Body} {data : List (PyStr × Json)}
    (h : FieldsTyped data) (hsize : ¬ cfg.consumerMaxMessageBytes < body.size)
    (hdata : body.loads = .value (.obj data)) (u : Uuid) :
    ∃ ev new fields, parseMessage cfg body u = .event ev ∧
      ColumnRules.permissive.bind ev = some new ∧ new.payload = .obj fields := by
  have hmessage : ∃ m, (if ((Json.get data (py "message_id")).getD .null).truthy then
      (Json.get data (py "message_id")).getD .null else .str u.str) = .str m := by
    split
    · rename_i htruthy
      cases hget : Json.get data (py "message_id") with
      | none =>
        rw [hget] at htruthy
        cases htruthy
      | some v =>
        rw [hget] at htruthy
        exact h.messageId v hget htruthy
    · exact ⟨_, rfl⟩
  have hevent : ∃ e, (Json.get data (py "event_type")).getD (.str (py "unknown")) = .str e := by
    cases hget : Json.get data (py "event_type") with
    | none => exact ⟨_, rfl⟩
    | some v => exact h.eventType v hget
  have hpayload : ∃ fields, (Json.get data (py "payload")).getD (.obj []) = .obj fields := by
    cases hget : Json.get data (py "payload") with
    | none => exact ⟨_, rfl⟩
    | some v => exact h.payload v hget
  obtain ⟨m, hm⟩ := hmessage
  obtain ⟨e, he⟩ := hevent
  obtain ⟨fields, hfields⟩ := hpayload
  exact ⟨_, _, fields, parseMessage_obj hsize hdata, bind_permissive hm he, hfields⟩

/-- Conversely the types can be read off the values that are accepted. -/
theorem FieldsTyped.of_bind {cfg : Settings} {body : Body} {data : List (PyStr × Json)} {u : Uuid}
    {ev : RawEvent} {new : NewEvent} {fields : List (PyStr × Json)}
    (hsize : ¬ cfg.consumerMaxMessageBytes < body.size) (hdata : body.loads = .value (.obj data))
    (hp : parseMessage cfg body u = .event ev) (hb : ColumnRules.permissive.bind ev = some new)
    (hpayload : new.payload = .obj fields) : FieldsTyped data := by
  obtain ⟨hm, he, hv⟩ := of_bind_eq_some hb
  rw [parseMessage_obj hsize hdata] at hp
  cases hp
  refine ⟨fun v hget htruthy => ⟨new.messageId, ?_⟩, fun v hget => ⟨new.eventType, ?_⟩,
    fun v hget => ⟨fields, ?_⟩⟩
  · rw [hget, Option.getD_some, if_pos htruthy] at hm
    exact hm
  · rw [hget, Option.getD_some] at he
    exact he
  · rw [hget, Option.getD_some, hpayload] at hv
    exact hv

/-! ## A call with an object payload -/

section
variable {p : Provider} {e : CallEnv} {new : NewEvent} {keys : List IdempotencyKey}
  {attempts : List DeliveryAttempt}

/-- The row is about the same event. -/
def SameEvent (row row' : IdempotencyKey) : Prop :=
  row'.messageId = row.messageId ∧ row'.eventType = row.eventType ∧ row'.rawPayload = row.rawPayload

/-- An update of the loaded row keeps the events of the table. -/
theorem of_mem_updateLoaded {m : MessageId} {f : IdempotencyKey → IdempotencyKey → IdempotencyKey}
    (hf : ∀ ik row, SameEvent row (f ik row)) {row' : IdempotencyKey}
    (h : row' ∈ updateLoaded m f keys) : ∃ row ∈ keys, SameEvent row row' := by
  unfold updateLoaded at h
  split at h
  · rename_i ik _
    obtain ⟨hmem, _⟩ | ⟨row, hmem, _, rfl⟩ := of_mem_updateWhere h
    · exact ⟨row', hmem, rfl, rfl, rfl⟩
    · exact ⟨row, hmem, hf ik row⟩
  · exact ⟨row', h, rfl, rfl, rfl⟩

/-- A dict payload is enriched without an exception, and the rows stay about their events.
SOURCE: app/consumer/rabbitmq.py:149-197 -/
theorem enrichMessage_obj {fields : List (PyStr × Json)} (hpayload : new.payload = .obj fields)
    (hp : p.ends new.eventType new.payload (e.enrich new.eventType new.payload)) :
    (enrichMessage e new keys attempts).escaped = false ∧
      (enrichMessage e new keys attempts).copy = .acked ∧
      ∀ row' ∈ (enrichMessage e new keys attempts).keys, ∃ row ∈ keys, SameEvent row row' := by
  have hother : e.enrich new.eventType new.payload ≠ .other := by
    rw [hpayload] at hp ⊢
    exact p.documented hp
  unfold enrichMessage
  cases ho : e.enrich new.eventType new.payload with
  | result enriched =>
    refine ⟨rfl, rfl, fun _ h => of_mem_updateLoaded ?_ h⟩
    exact fun _ _ => ⟨rfl, rfl, rfl⟩
  | transient => exact ⟨rfl, rfl, fun row h => ⟨row, h, rfl, rfl, rfl⟩⟩
  | fatal error =>
    refine ⟨rfl, rfl, fun _ h => of_mem_updateLoaded ?_ h⟩
    exact fun _ _ => ⟨rfl, rfl, rfl⟩
  | other => exact absurd ho hother

/-- A call that is done has left the table safe. -/
theorem handledSafely_done : HandledSafely p keys (.done keys attempts) := by
  refine ⟨rfl, rfl, fun row hrow => ?_⟩
  rw [CallResult.done, addedRows_of_map_eq rfl] at hrow
  cases hrow

/-- SOURCE: app/consumer/rabbitmq.py:131-197 -/
theorem handledSafely_storeMessage (h : Admissible p e keys attempts)
    {fields : List (PyStr × Json)} (hpayload : new.payload = .obj fields) :
    HandledSafely p keys (storeMessage e new keys attempts) := by
  unfold storeMessage
  split
  · exact handledSafely_done
  · rename_i hnew
    have hfresh : ∀ r, (new.messageId, r) ∉ attempts.map DeliveryAttempt.pair := by
      intro r hmem
      obtain ⟨row, hrow, hpair⟩ := List.mem_map.1 hmem
      exact hnew (isSome_lookup_iff.2 ((Prod.mk.inj hpair).1 ▸ h.foreignKey row hrow))
    have hrecipients : (recipients e.subscribers).Nodup :=
      ((List.filter_sublist).map Subscriber.id).nodup h.subscribers_nodup
    rw [insertAttempts_of_new h.ids_length h.ids_nodup h.pairs_nodup hrecipients hfresh]
    dsimp only
    obtain ⟨hreturns, hacked, hrows⟩ :=
      enrichMessage_obj hpayload (h.provided new.eventType new.payload)
    refine ⟨hreturns, hacked, fun row hrow _ => ?_⟩
    obtain ⟨hmem, hadded⟩ := List.mem_filter.1 hrow
    obtain ⟨row₀, hrow₀, hid, hevent, hraw⟩ := hrows row hmem
    obtain hold | hin := List.mem_append.1 hrow₀
    · have hnotMem : row.messageId ∉ keys.map IdempotencyKey.messageId := by simpa using hadded
      exact absurd (hid ▸ List.mem_map_of_mem hold) hnotMem
    · obtain rfl := List.mem_singleton.1 hin
      unfold Enrichable
      rw [hevent, hraw]
      show ∃ r, p.ends new.eventType new.payload (.result r)
      rw [hpayload]
      exact p.processes new.eventType fields

end

/-! ## A call with another payload -/

/-- A payload that is no dict: an exception escapes, or the new row stays in `received`.
SOURCE: app/enricher/mock_llm.py:52-59, app/consumer/rabbitmq.py:162-182 -/
theorem not_safe_of_not_obj {p : Provider} {e : CallEnv} {new : NewEvent}
    (hp : p.ends new.eventType new.payload (e.enrich new.eventType new.payload))
    (hpayload : ∀ fields, new.payload ≠ .obj fields) (attempts : List DeliveryAttempt) :
    ¬ HandledSafely p [] (enrichMessage e new [newKey new e.receivedAt] attempts) := by
  intro hsafe
  have hnever : ¬ Enrichable p (newKey new e.receivedAt) := by
    rintro ⟨r, hr⟩
    obtain ⟨fields, hfields⟩ := p.mapping hr
    exact hpayload fields hfields
  have henrichable := hsafe.enrichable
  have hreturns := hsafe.returns
  unfold enrichMessage at henrichable hreturns
  cases ho : e.enrich new.eventType new.payload with
  | result enriched =>
    rw [ho] at hp
    obtain ⟨fields, hfields⟩ := p.mapping hp
    exact hpayload fields hfields
  | transient =>
    rw [ho] at henrichable
    exact hnever (henrichable _ (by simp [addedRows, CallResult.done]) rfl)
  | fatal error =>
    rw [ho] at henrichable
    refine hnever (henrichable { newKey new e.receivedAt with
      error := flushColumn none (some error) none } ?_ rfl)
    simp [addedRows, CallResult.done, updateLoaded, lookup, updateKey, updateWhere, storeError, newKey]
  | other =>
    rw [ho] at hreturns
    cases hreturns

/-- The environment with empty tables. -/
noncomputable def emptyEnv (p : Provider) : CallEnv where
  fallback := ⟨0⟩
  receivedAt := 0
  subscribers := []
  readAt := 0
  ids := []
  committedAt := 0
  enrich eventType payload := (p.total eventType payload).choose
  enrichedAt := 0

/-- The environment without any row is admissible. -/
theorem admissible_emptyEnv (p : Provider) : Admissible p (emptyEnv p) [] [] :=
  ⟨List.nodup_nil, rfl, List.nodup_nil, List.nodup_nil, nofun,
    fun eventType payload => (p.total eventType payload).choose_spec⟩

/-- A call that has raised is not safe. -/
theorem not_safe_raised {p : Provider} {keys : List IdempotencyKey}
    {attempts : List DeliveryAttempt} : ¬ HandledSafely p keys (.raised keys attempts) :=
  fun h => absurd h.returns nofun

/-! ## The result -/

/-- A message is handled safely in every environment exactly when its body is oversized, not
decodable, or an object with the right types.
SOURCE: app/consumer/rabbitmq.py:106-197, app/enricher/mock_llm.py:32-62 -/
theorem handled_safely_iff (cfg : Settings) (p : Provider) (body : Body) :
    (∀ e keys attempts, Admissible p e keys attempts →
      HandledSafely p keys (handleMessageCall cfg .permissive e body keys attempts)) ↔
    Handleable cfg body := by
  constructor
  · intro hsafe
    have hempty := hsafe (emptyEnv p) [] [] (admissible_emptyEnv p)
    by_cases hsize : cfg.consumerMaxMessageBytes < body.size
    · exact Or.inl hsize
    refine Or.inr ?_
    cases hloads : body.loads with
    | decodeError => exact Or.inl rfl
    | otherError =>
      rw [handleMessageCall, parseMessage, if_neg hsize, hloads] at hempty
      exact absurd hempty not_safe_raised
    | value v =>
      refine Or.inr ?_
      cases v with
      | obj data =>
        refine ⟨data, rfl, ?_⟩
        have hp := parseMessage_obj (u := (emptyEnv p).fallback) hsize hloads
        rw [handleMessageCall, hp] at hempty
        dsimp only at hempty
        split at hempty
        · rename_i new hb
          by_cases hpayload : ∃ fields, new.payload = .obj fields
          · obtain ⟨fields, hpayload⟩ := hpayload
            exact .of_bind hsize hloads hp hb hpayload
          · have hprovided := (admissible_emptyEnv p).provided new.eventType new.payload
            exact absurd hempty
              (not_safe_of_not_obj hprovided (fun fields h => hpayload ⟨fields, h⟩) [])
        · exact absurd hempty not_safe_raised
      | _ =>
        rw [handleMessageCall, parseMessage, if_neg hsize, hloads] at hempty
        exact absurd hempty not_safe_raised
  · intro hbody e keys attempts henv
    by_cases hdiscard : cfg.consumerMaxMessageBytes < body.size ∨ body.loads = .decodeError
    · rw [handleMessageCall, parseMessage_discard hdiscard]
      exact handledSafely_done
    · obtain ⟨hsize, hdecode⟩ := not_or.1 hdiscard
      obtain ⟨data, hdata, htyped⟩ := (hbody.resolve_left hsize).resolve_left hdecode
      obtain ⟨ev, new, fields, hp, hb, hpayload⟩ := htyped.bind hsize hdata e.fallback
      rw [handleMessageCall, hp]
      dsimp only
      rw [hb]
      exact handledSafely_storeMessage henv hpayload

/-- An empty list is valid JSON, and `data.get` raises.
SOURCE: app/consumer/rabbitmq.py:118-125 -/
theorem list_not_handled_safely :
    ¬ ∀ (p : Provider) (body : Body) (e : CallEnv) (keys : List IdempotencyKey)
      (attempts : List DeliveryAttempt), Admissible p e keys attempts →
      HandledSafely p keys (handleMessageCall .default .permissive e body keys attempts) := by
  intro h
  have hsafe := h mockProvider (.ofDumps (.arr [])) (emptyEnv mockProvider) [] []
    (admissible_emptyEnv mockProvider)
  exact absurd hsafe not_safe_raised

end EventPipeline.Analysis

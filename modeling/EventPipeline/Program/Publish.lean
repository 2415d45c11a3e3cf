import EventPipeline.Model.Intake

/-!
# Publishing an event

The request schema of `POST /events/publish` and the body that `publish_event` puts on the
queue. A request that the schema rejects is no value of `EventPublishRequest`.
-/

set_option autoImplicit false

namespace EventPipeline.Program

open EventPipeline.Model

def maxPayloadBytes : ℕ := 512000

def maxEventTypeLen : ℕ := 255

/-- The validator of the payload, with the text of its error.
SOURCE: app/schemas/event.py:32-41 -/
def payloadSizeLimit (v : List (PyStr × Json)) : Except PyStr (List (PyStr × Json)) :=
  let size := ((Json.obj v).dumps .compact).length
  if maxPayloadBytes < size then
    .error (py "payload exceeds maximum serialized size of " ++ decimal maxPayloadBytes ++
      py " bytes (got " ++ decimal size ++ py " bytes)")
  else .ok v

/-- A request that has passed validation. Its payload was read by `json.loads`. A text with a
bound on its length is refused when it has a code point that UTF-8 cannot encode.
SOURCE: app/schemas/event.py:15-41 -/
structure EventPublishRequest where
  eventType : PyStr
  payload : List (PyStr × Json)
  messageId : Option PyStr
  event_type_length : 1 ≤ eventType.length ∧ eventType.length ≤ maxEventTypeLen
  event_type_unicode : eventType.any isSurrogate = false
  payload_size : payloadSizeLimit payload = .ok payload
  message_id_length : ∀ m ∈ messageId, m.length ≤ 255
  message_id_unicode : ∀ m ∈ messageId, m.any isSurrogate = false
  payload_floats : (Json.obj payload).floatsOk = true

/-- `body.message_id or str(uuid.uuid4())`, where the generated identifier is `u`.
SOURCE: app/api/events.py:25 -/
def publishedId (body : EventPublishRequest) (u : Uuid) : PyStr :=
  match body.messageId with
  | some m => if m.isEmpty then u.str else m
  | none => u.str

/-- A published message is never without an id. SOURCE: app/api/events.py:25 -/
theorem publishedId_ne_nil (body : EventPublishRequest) (u : Uuid) : publishedId body u ≠ [] := by
  unfold publishedId
  split
  · rename_i m hm
    split
    · exact u.str_ne_nil
    · simpa using ‹¬ m.isEmpty = true›
  · exact u.str_ne_nil

/-- The object that `publish_event` serialises. SOURCE: app/api/events.py:27-32 -/
def publishedEvent (body : EventPublishRequest) (u : Uuid) : Json :=
  .obj [(py "message_id", .str (publishedId body u)), (py "event_type", .str body.eventType),
    (py "payload", .obj body.payload)]

/-- The message of `publish_event`, as the consumer will observe it.
SOURCE: app/api/events.py:23-43 -/
def publishEvent (body : EventPublishRequest) (u : Uuid) : Body :=
  ⟨((publishedEvent body u).dumps .default).length, .value (publishedEvent body u).reread⟩

end EventPipeline.Program

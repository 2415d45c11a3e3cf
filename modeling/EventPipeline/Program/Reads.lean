import EventPipeline.Computation.Queries
import EventPipeline.Program.Api

/-!
# The API calls that only read

`get_event`, `list_deliveries` and `pipeline_stats`. A response model checks the values that it
is given, and a value that it rejects makes the call answer with 500. What the management API of
the broker answers is a parameter.
-/

set_option autoImplicit false

namespace EventPipeline.Program

open EventPipeline.Model EventPipeline.Computation

/-! ## `get_event` -/

/-- SOURCE: app/schemas/event.py:49-58 -/
structure EnrichedEventResponse where
  messageId : PyStr
  eventType : PyStr
  rawPayload : List (PyStr × Json)
  enrichedPayload : Option (List (PyStr × Json))
  status : EventStatus
  receivedAt : Time
  enrichedAt : Option Time
  dispatchedAt : Option Time
  error : Option PyStr

/-- A field of type `Optional[Dict[str, Any]]`. -/
def optionalDict : Option Json → Option (Option (List (PyStr × Json)))
  | none => some none
  | some (.obj fields) => some (some fields)
  | some _ => none

/-- `EnrichedEventResponse.model_validate`: both payloads must be dicts. No code writes the column
`dispatched_at`. SOURCE: app/schemas/event.py:49-60 -/
def EnrichedEventResponse.ofRow (ik : IdempotencyKey) : Option EnrichedEventResponse :=
  match ik.rawPayload, optionalDict ik.enrichedPayload with
  | .obj raw, some enriched =>
    some
      { messageId := ik.messageId
        eventType := ik.eventType
        rawPayload := raw
        enrichedPayload := enriched
        status := ik.status
        receivedAt := ik.receivedAt
        enrichedAt := ik.enrichedAt
        dispatchedAt := none
        error := ik.error }
  | _, _ => none

inductive EventReply where
  /-- 200 -/
  | found (response : EnrichedEventResponse)
  /-- 404 -/
  | notFound
  /-- 500 -/
  | failed

/-- The answer for a row, which the response model may reject. -/
def EventReply.ofResponse : Option EnrichedEventResponse → EventReply
  | some response => .found response
  | none => .failed

/-- A text that PostgreSQL cannot take as a parameter makes the SELECT raise.
SOURCE: app/api/events.py:49-59 -/
def getEvent (messageId : PyStr) (keys : List IdempotencyKey) : EventReply :=
  if Json.storable messageId then
    match lookup IdempotencyKey.messageId messageId keys with
    | some ik => .ofResponse (EnrichedEventResponse.ofRow ik)
    | none => .notFound
  else .failed

/-! ## `list_deliveries` -/

/-- The query parameters that have passed validation. SOURCE: app/api/deliveries.py:21-37 -/
structure DeliveryQuery where
  status : Option DeliveryStatus
  subscriberId : Option Uuid
  messageId : Option PyStr
  limit : ℕ
  limit_range : 1 ≤ limit ∧ limit ≤ 200

/-- The WHERE clauses. An empty `message_id` is falsy and filters nothing.
SOURCE: app/api/deliveries.py:39-45 -/
def DeliveryQuery.selects (q : DeliveryQuery) (a : DeliveryAttempt) : Bool :=
  (q.status.all fun st => a.status = st) && (q.subscriberId.all fun id => a.subscriberId = id) &&
    q.messageId.all fun m => m.isEmpty || a.messageId = m

/-- SOURCE: app/schemas/delivery.py:10-22 -/
structure DeliveryAttemptResponse where
  id : Uuid
  messageId : MessageId
  subscriberId : Uuid
  status : DeliveryStatus
  attemptCount : ℕ
  nextAttemptAt : Time
  lastAttemptAt : Option Time
  lastHttpStatus : Option ℕ
  lastError : Option PyStr
  createdAt : Time

/-- `DeliveryAttemptResponse.model_validate`. -/
def DeliveryAttemptResponse.ofRow (a : DeliveryAttempt) : DeliveryAttemptResponse where
  id := a.id
  messageId := a.messageId
  subscriberId := a.subscriberId
  status := a.status
  attemptCount := a.attemptCount
  nextAttemptAt := a.nextAttemptAt
  lastAttemptAt := a.lastAttemptAt
  lastHttpStatus := a.lastHttpStatus
  lastError := a.lastError
  createdAt := a.createdAt

/-- The call can answer with `response`. SOURCE: app/api/deliveries.py:31-47 -/
def ListsDeliveries (q : DeliveryQuery) (attempts : List DeliveryAttempt)
    (response : List DeliveryAttemptResponse) : Prop :=
  q.messageId.all Json.storable = true ∧
    ∃ page, IsPage DeliveryAttempt.createdAt q.limit (attempts.filter q.selects) page ∧
      response = page.map DeliveryAttemptResponse.ofRow

/-! ## `pipeline_stats` -/

/-- What the request to the management API gives: an exception with its text, or a response with
the value of its body or the text of the exception of `resp.json()`. -/
inductive ManagementReply where
  | raised (exc : PyStr)
  | response (statusCode : ℕ) (json : Except PyStr Json)

/-- The name of the Python type of a JSON value. -/
def typeName : Json → PyStr
  | .null => py "NoneType"
  | .bool _ => py "bool"
  | .int _ => py "int"
  | .float _ => py "float"
  | .str _ => py "str"
  | .arr _ => py "list"
  | .obj _ => py "dict"

/-- The queue depth, or the text of the error. SOURCE: app/api/deliveries.py:96-116 -/
def queueDepth : ManagementReply → Except PyStr Json
  | .raised exc => .error exc
  | .response statusCode json =>
    if statusCode = 200 then
      match json with
      | .error exc => .error exc
      | .ok (.obj data) => .ok ((Json.get data (py "messages")).getD (.int 0))
      | .ok v =>
        .error (py "\x27" ++ typeName v ++ py "\x27 object has no attribute \x27get\x27")
    else .error (py "management API returned HTTP " ++ decimal statusCode)

/-- SOURCE: app/schemas/delivery.py:25-31 -/
structure PipelineStats where
  queueDepth : Option ℤ
  queueDepthAvailable : Bool
  queueDepthError : Option PyStr
  deliveriesByStatus : List (DeliveryStatus × ℕ)
  idempotencyKeysByStatus : List (EventStatus × ℕ)

/-- The check of the field `queue_depth`; `laxInt` is the conversion of other values than integers
to an integer. -/
def optionalInt (laxInt : Json → Option ℤ) : Json → Option (Option ℤ)
  | .null => some none
  | .int n => some (some n)
  | v => (laxInt v).map some

/-- The two tables are read by two statements, so other transactions may commit between them;
`none` is a 500. SOURCE: app/api/deliveries.py:74-126 -/
def pipelineStats (laxInt : Json → Option ℤ) (attempts : List DeliveryAttempt)
    (keys : List IdempotencyKey) (reply : ManagementReply) : Option PipelineStats :=
  let deliveries := groupCounts DeliveryAttempt.status attempts
  let events := groupCounts IdempotencyKey.status keys
  match queueDepth reply with
  | .error e => some ⟨none, false, some e, deliveries, events⟩
  | .ok depth => (optionalInt laxInt depth).map fun n => ⟨n, true, none, deliveries, events⟩

end EventPipeline.Program

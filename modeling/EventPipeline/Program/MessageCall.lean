import EventPipeline.Program.Enricher

/-!
# A message handled from start to end

`handle_message` as one function, for a call that no other process interferes with. It is made
of the same functions as the step function of the call. What the outside decides is in a
`CallEnv`, and what the columns accept is a parameter.
-/

set_option autoImplicit false

namespace EventPipeline.Program

open EventPipeline.Model EventPipeline.Computation

/-- What a database accepts as the text of a column and as a jsonb value. -/
structure ColumnRules where
  text : PyStr → Bool
  jsonb : Json → Bool

/-- SOURCE: app/db/models.py:48-50 -/
def ColumnRules.postgres : ColumnRules := ⟨Json.varcharAccepts 255, Json.jsonbAccepts⟩

/-- It accepts every string and every JSON value. -/
def ColumnRules.permissive : ColumnRules := ⟨fun _ => true, fun _ => true⟩

/-- The values of the INSERT. The driver takes only strings for the two text parameters.
SOURCE: app/consumer/rabbitmq.py:47-66 -/
def ColumnRules.bind (rules : ColumnRules) (ev : RawEvent) : Option NewEvent :=
  match ev.messageId, ev.eventType with
  | .str m, .str e =>
    if rules.text m && rules.text e && rules.jsonb ev.payload then some ⟨m, e, ev.payload⟩ else none
  | _, _ => none

/-- Under the rules of PostgreSQL the bound values are those of the INSERT. -/
theorem bind_postgres (ev : RawEvent) : ColumnRules.postgres.bind ev = insertValues ev := rfl

/-- What the outside does while one message is handled. -/
structure CallEnv where
  /-- what `uuid.uuid4` returns for a missing `message_id` -/
  fallback : Uuid
  receivedAt : Time
  subscribers : List Subscriber
  readAt : Time
  /-- the identifiers that are generated for the attempts -/
  ids : List Uuid
  committedAt : Time
  /-- how `_enrich_with_retry` ends -/
  enrich : PyStr → Json → EnrichOutcome
  enrichedAt : Time

/-- How the call ends, and what it leaves. -/
structure CallResult where
  /-- an exception leaves `handle_message` -/
  escaped : Bool
  copy : CopyState
  keys : List IdempotencyKey
  attempts : List DeliveryAttempt

/-- An exception leaves the call before the message is ACKed, and nothing is committed. -/
def CallResult.raised (keys : List IdempotencyKey) (attempts : List DeliveryAttempt) :
    CallResult :=
  ⟨true, processOnException processRequeue .unacked, keys, attempts⟩

/-- The message is ACKed and the call returns. -/
def CallResult.done (keys : List IdempotencyKey) (attempts : List DeliveryAttempt) : CallResult :=
  ⟨false, .acked, keys, attempts⟩

/-- SELECT the row of a message, change it and commit.
SOURCE: app/consumer/rabbitmq.py:174-181,186-195 -/
def updateLoaded (m : MessageId) (f : IdempotencyKey → IdempotencyKey → IdempotencyKey)
    (keys : List IdempotencyKey) : List IdempotencyKey :=
  match lookup IdempotencyKey.messageId m keys with
  | some ik => updateKey m (f ik) keys
  | none => keys

/-- The rest of the call after the early ACK. SOURCE: app/consumer/rabbitmq.py:149-197 -/
def enrichMessage (e : CallEnv) (new : NewEvent) (keys : List IdempotencyKey)
    (attempts : List DeliveryAttempt) : CallResult :=
  match e.enrich new.eventType new.payload with
  | .result enriched =>
    .done (updateLoaded new.messageId
      (fun ik => storeEnrichment ik (.obj enriched) e.enrichedAt) keys) attempts
  | .transient => .done keys attempts
  | .fatal error => .done (updateLoaded new.messageId (fun ik => storeError ik error) keys) attempts
  | .other => ⟨true, .acked, keys, attempts⟩

/-- The transaction, and the rest of the call behind it.
SOURCE: app/consumer/rabbitmq.py:131-147 -/
def storeMessage (e : CallEnv) (new : NewEvent) (keys : List IdempotencyKey)
    (attempts : List DeliveryAttempt) : CallResult :=
  if (lookup IdempotencyKey.messageId new.messageId keys).isSome then .done keys attempts
  else
    match insertAttempts attempts
        (createDeliveryAttempts new.messageId e.subscribers e.ids e.readAt e.committedAt) with
    | some attempts' => enrichMessage e new (keys ++ [newKey new e.receivedAt]) attempts'
    | none => .raised keys attempts

/-- `handle_message` on the body of a message, with the two tables that it finds.
SOURCE: app/consumer/rabbitmq.py:106-197 -/
def handleMessageCall (cfg : Settings) (rules : ColumnRules) (e : CallEnv) (body : Body)
    (keys : List IdempotencyKey) (attempts : List DeliveryAttempt) : CallResult :=
  match parseMessage cfg body e.fallback with
  | .discard => .done keys attempts
  | .raised => .raised keys attempts
  | .event ev =>
    match rules.bind ev with
    | some new => storeMessage e new keys attempts
    | none => .raised keys attempts

end EventPipeline.Program

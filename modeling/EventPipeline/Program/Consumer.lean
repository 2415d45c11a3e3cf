import EventPipeline.Computation.Table
import EventPipeline.Model.Intake

/-!
# The consumer: `handle_message`

One `handle_message` call as a step function. A step takes the call from one await to the
next. What the environment decides is in the action: the identifiers that are generated,
the result of the provider, an exception from the database, a crash. A step that would have
to wait is disabled.
-/

set_option autoImplicit false

namespace EventPipeline.Program

open EventPipeline.Model EventPipeline.Computation

/-! ## Parsing -/

/-- What the synchronous start of `handle_message` makes of a body. -/
inductive Parsed where
  /-- oversized or not JSON: ACK and return -/
  | discard
  /-- an exception that the handler does not catch -/
  | raised
  | event (ev : RawEvent)

/-- The size guard, `json.loads` and the three `data.get` calls. A value that is no dict has
no `get`, so the attribute access raises. The identifier `u` is the fallback for a missing
or falsy `message_id`. SOURCE: app/consumer/rabbitmq.py:108-128 -/
def parseMessage (cfg : Settings) (body : Body) (u : Uuid) : Parsed :=
  if cfg.consumerMaxMessageBytes < body.size then .discard
  else match body.loads with
    | .decodeError => .discard
    | .otherError => .raised
    | .value (.obj data) =>
      let messageId := (Json.get data (py "message_id")).getD .null
      .event
        { messageId := if messageId.truthy then messageId else .str u.str
          eventType := (Json.get data (py "event_type")).getD (.str (py "unknown"))
          payload := (Json.get data (py "payload")).getD (.obj []) }
    | .value _ => .raised

/-! ## The transaction -/

/-- The values of the INSERT as the database takes them: the two VARCHAR(255) parameters
must be strings that fit, the payload is serialised and cast to jsonb. `none` is an
exception from the database driver. SOURCE: app/consumer/rabbitmq.py:47-66 -/
def insertValues (ev : RawEvent) : Option NewEvent :=
  match ev.messageId, ev.eventType with
  | .str m, .str e =>
    if Json.varcharAccepts 255 m && Json.varcharAccepts 255 e && ev.payload.jsonbAccepts then
      some ⟨m, e, ev.payload⟩
    else none
  | _, _ => none

/-- The row that the INSERT creates; the columns it does not name are null, and
`reconcile_count` gets the default of the migrated table.
SOURCE: app/consumer/rabbitmq.py:50-58, app/db/session.py:62 -/
def newKey (ev : NewEvent) (receivedAt : Time) : IdempotencyKey where
  messageId := ev.messageId
  eventType := ev.eventType
  rawPayload := ev.payload
  enrichedPayload := none
  status := .received
  receivedAt := receivedAt
  enrichedAt := none
  error := none
  reconcileCount := 0

/-- One pending attempt per active subscriber that the SELECT returned, with the generated
identifiers `ids`. SOURCE: app/consumer/rabbitmq.py:74-93 -/
def createDeliveryAttempts (messageId : MessageId) (seen : List Subscriber) (ids : List Uuid)
    (readAt createdAt : Time) : List DeliveryAttempt :=
  ((seen.filter Subscriber.receives).zip ids).map fun p =>
    { id := p.2
      messageId := messageId
      subscriberId := p.1.id
      status := .pending
      attemptCount := 0
      nextAttemptAt := readAt
      lastAttemptAt := none
      lastHttpStatus := none
      lastError := none
      createdAt := createdAt
      updatedAt := createdAt }

/-- INSERT of several attempts: refused when the primary key or the UNIQUE constraint would
be violated. SOURCE: app/db/models.py:67-83 -/
def insertAttempts (attempts new : List DeliveryAttempt) : Option (List DeliveryAttempt) :=
  if ((attempts ++ new).map DeliveryAttempt.id).Nodup ∧
      ((attempts ++ new).map DeliveryAttempt.pair).Nodup then
    some (attempts ++ new)
  else none

/-! ## How the call ends -/

/-- The broker copy after an exception has left the block
`async with message.process(ignore_processed=True)`. The context manager rejects a message
that is not processed yet, and `requeue` is its parameter of that name.
SOURCE: app/consumer/rabbitmq.py:107 -/
def processOnException (requeue : Bool) : CopyState → CopyState
  | .unacked => if requeue then .ready else .rejected
  | st => st

/-- `handle_message` leaves the parameter at its default. -/
def processRequeue : Bool := false

/-- An exception escapes from call `t`. -/
def raiseFrom (s : Intake) (t : Tag) : Intake :=
  ((s.closeInsert t).setHandler t .idle).modifyCopy t (processOnException processRequeue)

/-- The process of call `t` dies; the broker redelivers a copy that was not ACKed. -/
def crashHandler (s : Intake) (t : Tag) : Intake :=
  ((s.closeInsert t).setHandler t .idle).modifyCopy t fun
    | .unacked => .ready
    | st => st

/-! ## After the ACK -/

/-- How `_enrich_with_retry` ends. The enriched payload of a result is a dict.
SOURCE: app/consumer/rabbitmq.py:96-103, app/enricher/base.py:9-15 -/
inductive EnrichOutcome where
  | result (enriched : List (PyStr × Json))
  | transient
  | fatal (error : PyStr)
  /-- any other exception, also from creating the provider -/
  | other

/-- The flush of step 5. SOURCE: app/consumer/rabbitmq.py:191-195 -/
def storeEnrichment (ik : IdempotencyKey) (enriched : Json) (now : Time) (row : IdempotencyKey) :
    IdempotencyKey :=
  { row with
    enrichedPayload := flushColumn ik.enrichedPayload (some enriched) row.enrichedPayload
    status := flushColumn ik.status .enriched row.status
    enrichedAt := flushColumn ik.enrichedAt (some now) row.enrichedAt }

/-- The flush after a `FatalEnrichmentError`. SOURCE: app/consumer/rabbitmq.py:179-181 -/
def storeError (ik : IdempotencyKey) (error : PyStr) (row : IdempotencyKey) : IdempotencyKey :=
  { row with error := flushColumn ik.error (some error) row.error }

def updateKey (m : MessageId) (f : IdempotencyKey → IdempotencyKey) (keys : List IdempotencyKey) :
    List IdempotencyKey :=
  updateWhere (fun k => k.messageId = m) f keys

/-! ## The step function -/

inductive HandlerAction where
  /-- the broker delivers the copy -/
  | start (u : Uuid)
  | insert
  | selectSubscribers
  /-- flush and COMMIT; `ids` are the identifiers generated for the attempts -/
  | commit (ids : List Uuid)
  /-- the COMMIT takes effect, but the call sees an exception -/
  | commitLost (ids : List Uuid)
  /-- a database call raises; an open transaction is rolled back -/
  | dbError
  | ack
  | enrich (o : EnrichOutcome)
  /-- the SELECT of the row that step 5 or the error text is written to -/
  | load
  /-- flush and COMMIT of that row -/
  | write
  | crash

/-- The committed transaction of call `t`, with the call left in `h`. -/
def commitEvent (s : Intake) (attempts : List DeliveryAttempt) (now : Time) (t : Tag)
    (ev : NewEvent) (receivedAt : Time) (seen : List Subscriber) (readAt : Time)
    (ids : List Uuid) : Option (Intake × List DeliveryAttempt) :=
  if ids.length = (seen.filter Subscriber.receives).length then
    (insertAttempts attempts (createDeliveryAttempts ev.messageId seen ids readAt now)).map
      fun attempts' =>
        (({ s.closeInsert t with
            keys := s.keys ++ [newKey ev receivedAt]
            ledger := s.ledger ++ [⟨ev.messageId, seen⟩] } : Intake).setHandler t (.committed ev),
          attempts')
  else none

/-- The step function of `handle_message` call `t`; the attempts table is its second result.
SOURCE: app/consumer/rabbitmq.py:106-197 -/
def handleMessage (cfg : Settings) (now : Time) (subscribers : List Subscriber)
    (s : Intake) (attempts : List DeliveryAttempt) (t : Tag) :
    HandlerAction → Option (Intake × List DeliveryAttempt)
  | .start u =>
    match s.copies t, s.handlers t with
    | some ⟨body, .ready⟩, .idle =>
      match parseMessage cfg body u with
      | .discard => some ((s.setHandler t .acking).setCopy t .unacked, attempts)
      | .raised => some (raiseFrom (s.setCopy t .unacked) t, attempts)
      | .event ev => some ((s.setHandler t (.parsed ev)).setCopy t .unacked, attempts)
    | _, _ => none
  | .insert =>
    match s.handlers t with
    | .parsed ev =>
      match insertValues ev with
      | none => some (raiseFrom s t, attempts)
      | some new =>
        if new.messageId ∈ s.ids then some (s.setHandler t .acking, attempts)
        else if new.messageId ∈ s.openInserts.map Prod.snd then none
        else
          some (({ s with openInserts := s.openInserts ++ [(t, new.messageId)] } : Intake).setHandler
            t (.inserted new now), attempts)
    | _ => none
  | .selectSubscribers =>
    match s.handlers t with
    | .inserted ev receivedAt =>
      some (s.setHandler t (.selected ev receivedAt subscribers now), attempts)
    | _ => none
  | .commit ids =>
    match s.handlers t with
    | .selected ev receivedAt seen readAt =>
      commitEvent s attempts now t ev receivedAt seen readAt ids
    | _ => none
  | .commitLost ids =>
    match s.handlers t with
    | .selected ev receivedAt seen readAt =>
      (commitEvent s attempts now t ev receivedAt seen readAt ids).map fun r =>
        (raiseFrom r.1 t, r.2)
    | _ => none
  | .dbError =>
    match s.handlers t with
    | .idle | .acking | .committed _ | .enriching _ => none
    | _ => some (raiseFrom s t, attempts)
  | .ack =>
    match s.handlers t with
    | .acking => some ((s.setHandler t .idle).setCopy t .acked, attempts)
    | .committed ev => some ((s.setHandler t (.enriching ev)).setCopy t .acked, attempts)
    | _ => none
  | .enrich o =>
    match s.handlers t with
    | .enriching ev =>
      match o with
      | .result enriched =>
        some (s.setHandler t (.storing ev.messageId (.obj enriched) now), attempts)
      | .fatal error => some (s.setHandler t (.recording ev.messageId error), attempts)
      | .transient | .other => some (s.setHandler t .idle, attempts)
    | _ => none
  | .load =>
    match s.handlers t with
    | .storing m enriched at' =>
      match lookup IdempotencyKey.messageId m s.keys with
      | some ik => some (s.setHandler t (.storeLoaded m enriched at' ik), attempts)
      | none => some (s.setHandler t .idle, attempts)
    | .recording m error =>
      match lookup IdempotencyKey.messageId m s.keys with
      | some ik => some (s.setHandler t (.recordLoaded m error ik), attempts)
      | none => some (s.setHandler t .idle, attempts)
    | _ => none
  | .write =>
    match s.handlers t with
    | .storeLoaded m enriched at' ik =>
      some (({ s with keys := updateKey m (storeEnrichment ik enriched at') s.keys } :
        Intake).setHandler t .idle, attempts)
    | .recordLoaded m error ik =>
      some (({ s with keys := updateKey m (storeError ik error) s.keys } : Intake).setHandler t
        .idle, attempts)
    | _ => none
  | .crash =>
    match s.handlers t with
    | .idle => none
    | _ => some (crashHandler s t, attempts)

end EventPipeline.Program

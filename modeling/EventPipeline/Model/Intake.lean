import Mathlib.Logic.Function.Basic
import EventPipeline.Model.Rows

/-!
# The state of the intake side

The queue, the `handle_message` calls and the `_reconciler` cycles in progress, and the
table `idempotency_keys`. A call or a cycle is a program counter with its local variables;
it stops at every point where the source awaits the database, the broker or the provider.

Two fields are history and are read by no step: `ledger` records, for each transaction
that created a key row, the subscribers its SELECT returned, and `reEnqueued` the copies
that the exchange accepted from a reconciler.
-/

set_option autoImplicit false

namespace EventPipeline.Model

/-- What `json.loads` does on a message body. -/
inductive LoadsResult where
  | value (v : Json)
  /-- `JSONDecodeError` or `UnicodeDecodeError` -/
  | decodeError
  /-- any other exception, such as `RecursionError` -/
  | otherError

/-- A message body as the consumer observes it: its length in bytes, and what `json.loads`
makes of it. -/
structure Body where
  size : ℕ
  loads : LoadsResult

/-- The body `json.dumps(v).encode()`; `json.loads` reads `v` back from it. -/
def Body.ofDumps (v : Json) : Body := ⟨(v.dumps .default).length, .value v⟩

/-- The body of a published event, both of a new one and of a re-enqueued one.
SOURCE: app/api/events.py:27-33, app/consumer/rabbitmq.py:236-242 -/
def eventBody (messageId eventType : PyStr) (payload : Json) : Body :=
  .ofDumps (.obj
    [(py "message_id", .str messageId), (py "event_type", .str eventType), (py "payload", payload)])

/-- Where one copy of a message is. The broker holds it while it is `ready` or `unacked`. -/
inductive CopyState where
  | ready
  | unacked
  | acked
  | rejected
  deriving DecidableEq, Repr

structure Copy where
  body : Body
  state : CopyState

/-- The broker can still deliver the copy. -/
def Copy.held (c : Copy) : Bool := c.state = .ready || c.state = .unacked

/-- Numbers the copies that enter the queue; also names the call that handles the copy. -/
abbrev Tag := ℕ

/-- Numbers the consumer processes, each with one reconciler. -/
abbrev ConsumerId := ℕ

/-- `message_id`, `event_type` and `payload` as `handle_message` takes them from the body:
any JSON values. SOURCE: app/consumer/rabbitmq.py:125-128 -/
structure RawEvent where
  messageId : Json
  eventType : Json
  payload : Json

/-- The three values once the database has accepted them as column values. -/
structure NewEvent where
  messageId : MessageId
  eventType : PyStr
  payload : Json

/-- One `handle_message` call. SOURCE: app/consumer/rabbitmq.py:106-197 -/
inductive Handler where
  /-- no call is running on this copy -/
  | idle
  /-- only `await message.ack()` and the return are left (oversized, invalid, duplicate) -/
  | acking
  /-- before the INSERT -/
  | parsed (ev : RawEvent)
  /-- the INSERT is done in an open transaction -/
  | inserted (ev : NewEvent) (receivedAt : Time)
  /-- the subscribers are read, the transaction is still open -/
  | selected (ev : NewEvent) (receivedAt : Time) (seen : List Subscriber) (readAt : Time)
  /-- the transaction is committed, the message not yet ACKed -/
  | committed (ev : NewEvent)
  /-- after the early ACK -/
  | enriching (ev : NewEvent)
  /-- the provider returned, before the SELECT of step 5 -/
  | storing (messageId : MessageId) (enriched : Json) (now : Time)
  /-- before the commit of step 5 -/
  | storeLoaded (messageId : MessageId) (enriched : Json) (now : Time) (ik : IdempotencyKey)
  /-- `FatalEnrichmentError` was raised, before the SELECT -/
  | recording (messageId : MessageId) (error : PyStr)
  /-- before the commit of the error text -/
  | recordLoaded (messageId : MessageId) (error : PyStr) (ik : IdempotencyKey)

/-- The message of a call that has created its key row and has not ended. -/
def Handler.owns : Handler → Option MessageId
  | .committed ev | .enriching ev => some ev.messageId
  | .storing m _ _ | .storeLoaded m _ _ _ | .recording m _ | .recordLoaded m _ _ => some m
  | _ => none

/-- The message of a call whose INSERT is not committed yet. -/
def Handler.inserting : Handler → Option MessageId
  | .inserted ev _ | .selected ev _ _ _ => some ev.messageId
  | _ => none

/-- A change that a reconciler cycle has made to a loaded row and not yet committed. -/
inductive KeyWrite where
  | abandoned (messageId : MessageId) (error : PyStr)
  | counted (messageId : MessageId) (reconcileCount : ℕ)

def KeyWrite.messageId : KeyWrite → MessageId
  | .abandoned m _ | .counted m _ => m

def KeyWrite.abandonedId : KeyWrite → Option MessageId
  | .abandoned m _ => some m
  | .counted _ _ => none

def KeyWrite.countedId : KeyWrite → Option MessageId
  | .abandoned _ _ => none
  | .counted m _ => some m

/-- One `_reconciler` cycle: the loaded rows still to do, and the changes made so far.
SOURCE: app/consumer/rabbitmq.py:200-265 -/
inductive Cycle where
  | idle
  | running (todo : List IdempotencyKey) (dirty : List KeyWrite)

def Cycle.todo : Cycle → List IdempotencyKey
  | .idle => []
  | .running todo _ => todo

def Cycle.dirty : Cycle → List KeyWrite
  | .idle => []
  | .running _ dirty => dirty

/-- A committed transaction that created a key row. -/
structure Acceptance where
  messageId : MessageId
  seen : List Subscriber

structure Intake where
  copies : Tag → Option Copy
  handlers : Tag → Handler
  reconcilers : ConsumerId → Cycle
  keys : List IdempotencyKey
  /-- the uncommitted INSERTs, on which another INSERT of the same key waits -/
  openInserts : List (Tag × MessageId)
  ledger : List Acceptance
  reEnqueued : List MessageId

def Intake.init : Intake where
  copies _ := none
  handlers _ := .idle
  reconcilers _ := .idle
  keys := []
  openInserts := []
  ledger := []
  reEnqueued := []

namespace Intake

def ids (s : Intake) : List MessageId := s.keys.map IdempotencyKey.messageId

def setHandler (s : Intake) (t : Tag) (h : Handler) : Intake :=
  { s with handlers := Function.update s.handlers t h }

def modifyCopy (s : Intake) (t : Tag) (f : CopyState → CopyState) : Intake :=
  { s with
    copies := Function.update s.copies t ((s.copies t).map fun c => { c with state := f c.state }) }

def setCopy (s : Intake) (t : Tag) (st : CopyState) : Intake := s.modifyCopy t fun _ => st

/-- The transaction of call `t` ends and frees the key it was inserting. -/
def closeInsert (s : Intake) (t : Tag) : Intake :=
  { s with openInserts := s.openInserts.filter fun p => p.1 ≠ t }

/-! ### What the operations leave alone -/

section
variable (s : Intake) (t : Tag) (h : Handler) (f : CopyState → CopyState) (st : CopyState)

@[simp] theorem setHandler_handlers :
    (s.setHandler t h).handlers = Function.update s.handlers t h := rfl
@[simp] theorem setHandler_copies : (s.setHandler t h).copies = s.copies := rfl
@[simp] theorem setHandler_keys : (s.setHandler t h).keys = s.keys := rfl
@[simp] theorem setHandler_ids : (s.setHandler t h).ids = s.ids := rfl
@[simp] theorem setHandler_openInserts : (s.setHandler t h).openInserts = s.openInserts := rfl
@[simp] theorem setHandler_reconcilers : (s.setHandler t h).reconcilers = s.reconcilers := rfl
@[simp] theorem setHandler_ledger : (s.setHandler t h).ledger = s.ledger := rfl
@[simp] theorem setHandler_reEnqueued : (s.setHandler t h).reEnqueued = s.reEnqueued := rfl

@[simp] theorem modifyCopy_handlers : (s.modifyCopy t f).handlers = s.handlers := rfl
@[simp] theorem modifyCopy_copies : (s.modifyCopy t f).copies =
    Function.update s.copies t ((s.copies t).map fun c => { c with state := f c.state }) := rfl
@[simp] theorem modifyCopy_keys : (s.modifyCopy t f).keys = s.keys := rfl
@[simp] theorem modifyCopy_ids : (s.modifyCopy t f).ids = s.ids := rfl
@[simp] theorem modifyCopy_openInserts : (s.modifyCopy t f).openInserts = s.openInserts := rfl
@[simp] theorem modifyCopy_reconcilers : (s.modifyCopy t f).reconcilers = s.reconcilers := rfl
@[simp] theorem modifyCopy_ledger : (s.modifyCopy t f).ledger = s.ledger := rfl
@[simp] theorem modifyCopy_reEnqueued : (s.modifyCopy t f).reEnqueued = s.reEnqueued := rfl

@[simp] theorem setCopy_eq : s.setCopy t st = s.modifyCopy t fun _ => st := rfl

@[simp] theorem closeInsert_handlers : (s.closeInsert t).handlers = s.handlers := rfl
@[simp] theorem closeInsert_copies : (s.closeInsert t).copies = s.copies := rfl
@[simp] theorem closeInsert_keys : (s.closeInsert t).keys = s.keys := rfl
@[simp] theorem closeInsert_ids : (s.closeInsert t).ids = s.ids := rfl
@[simp] theorem closeInsert_openInserts :
    (s.closeInsert t).openInserts = s.openInserts.filter fun p => p.1 ≠ t := rfl
@[simp] theorem closeInsert_reconcilers : (s.closeInsert t).reconcilers = s.reconcilers := rfl
@[simp] theorem closeInsert_ledger : (s.closeInsert t).ledger = s.ledger := rfl
@[simp] theorem closeInsert_reEnqueued : (s.closeInsert t).reEnqueued = s.reEnqueued := rfl

end

end Intake

end EventPipeline.Model

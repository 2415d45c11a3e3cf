import EventPipeline.Model.Json
import EventPipeline.Model.Settings

/-!
# Rows of the three tables

SOURCE: app/db/models.py:28-93. The columns `name` and `created_at` of a subscriber and
`dispatched_at` of an event are left out: no modelled function reads or writes them.
-/

set_option autoImplicit false

namespace EventPipeline.Model

abbrev MessageId := PyStr

/-- A row of `subscribers`. SOURCE: app/db/models.py:28-41 -/
structure Subscriber where
  id : Uuid
  endpoint : PyStr
  secret : PyStr
  isActive : Bool
  updatedAt : Time
  deletedAt : Option Time

/-- The test that both the consumer and the worker make on a subscriber. -/
def Subscriber.receives (s : Subscriber) : Bool := s.isActive && s.deletedAt.isNone

/-- The status column of `idempotency_keys`. SOURCE: app/db/models.py:52 -/
inductive EventStatus where
  | received
  | enriched
  | dispatched
  | failed
  deriving DecidableEq, Repr

/-- A row of `idempotency_keys`. SOURCE: app/db/models.py:44-61 -/
structure IdempotencyKey where
  messageId : MessageId
  eventType : PyStr
  rawPayload : Json
  enrichedPayload : Option Json
  status : EventStatus
  receivedAt : Time
  enrichedAt : Option Time
  error : Option PyStr
  reconcileCount : ℕ

/-- The status column of `delivery_attempts`. SOURCE: app/db/models.py:71 -/
inductive DeliveryStatus where
  | pending
  | inFlight
  | delivered
  | failed
  | dead
  deriving DecidableEq, Repr

/-- A row of `delivery_attempts`. SOURCE: app/db/models.py:64-93 -/
structure DeliveryAttempt where
  id : Uuid
  messageId : MessageId
  subscriberId : Uuid
  status : DeliveryStatus
  attemptCount : ℕ
  nextAttemptAt : Time
  lastAttemptAt : Option Time
  lastHttpStatus : Option ℕ
  lastError : Option PyStr
  createdAt : Time
  updatedAt : Time
  deriving DecidableEq

/-- What the UNIQUE constraint of `delivery_attempts` is about.
SOURCE: app/db/models.py:83 -/
def DeliveryAttempt.pair (a : DeliveryAttempt) : MessageId × Uuid := (a.messageId, a.subscriberId)

/-- The value a column has after an ORM flush. The session writes a column only when the
value assigned to it differs from the value it loaded; otherwise the column keeps what is
in the table now. -/
def flushColumn {α : Type} [DecidableEq α] (loaded assigned current : α) : α :=
  if loaded = assigned then current else assigned

/-- A value that differs from the loaded one is written. -/
theorem flushColumn_of_ne {α : Type} [DecidableEq α] {loaded assigned : α} (current : α)
    (h : loaded ≠ assigned) : flushColumn loaded assigned current = assigned := if_neg h

/-- A column that nobody else has written gets the assigned value. -/
theorem flushColumn_loaded {α : Type} [DecidableEq α] (x y : α) : flushColumn x y x = y := by
  unfold flushColumn
  split
  · assumption
  · rfl

end EventPipeline.Model

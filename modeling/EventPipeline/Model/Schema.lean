import Mathlib.Algebra.Group.Int.Defs
import EventPipeline.Computation.Columns
import EventPipeline.Model.Rows

/-!
# The schema of the database

The three tables as the ORM classes declare them and as `CREATE TABLE` declares them. The
two differ: the argument `default` of an ORM column is applied by the ORM when it writes a
row, and reaches no DEFAULT clause. Indexes and the constraints between rows are left out.

SOURCE: app/db/models.py:24-93
-/

set_option autoImplicit false

namespace EventPipeline.Model

open EventPipeline.Computation

inductive TableName where
  | subscribers
  | idempotencyKeys
  | deliveryAttempts
  deriving DecidableEq

/-- The names of the columns of all three tables. -/
inductive ColumnName where
  | id
  | name
  | endpoint
  | secret
  | isActive
  | createdAt
  | updatedAt
  | deletedAt
  | messageId
  | eventType
  | rawPayload
  | enrichedPayload
  | status
  | receivedAt
  | enrichedAt
  | dispatchedAt
  | error
  | reconcileCount
  | subscriberId
  | attemptCount
  | nextAttemptAt
  | lastAttemptAt
  | lastHttpStatus
  | lastError
  deriving DecidableEq

/-- A value that is not NULL. -/
inductive SqlValue where
  | uuid (u : Uuid)
  | text (s : PyStr)
  | int (n : ℤ)
  | bool (b : Bool)
  | time (t : Time)
  | jsonb (v : Json)
  deriving DecidableEq

inductive SqlType where
  | uuid
  | varchar (n : ℕ)
  | text
  | integer
  | boolean
  | timestamptz
  | jsonb

/-- The values that PostgreSQL stores in a column of the type. -/
def SqlType.accepts : SqlType → SqlValue → Bool
  | .uuid, .uuid _ => true
  | .varchar n, .text s => Json.varcharAccepts n s
  | .text, .text s => Json.storable s
  | .integer, .int n => -2 ^ 31 ≤ n && n < 2 ^ 31
  | .boolean, .bool _ => true
  | .timestamptz, .time _ => true
  | .jsonb, .jsonb v => v.jsonbAccepts
  | _, _ => false

/-- The argument `default` of `Column`: a value or one of the two functions in use. -/
inductive OrmDefault where
  | value (v : SqlValue)
  | uuid4
  | utcnow

structure OrmColumn where
  name : ColumnName
  type : SqlType
  nullable : Bool
  default : Option OrmDefault

/-- The columns of the ORM class of a table. SOURCE: app/db/models.py:31-38,47-58,67-78 -/
def ormColumns : TableName → List OrmColumn
  | .subscribers =>
    [⟨.id, .uuid, false, some .uuid4⟩,
      ⟨.name, .varchar 255, false, none⟩,
      ⟨.endpoint, .text, false, none⟩,
      ⟨.secret, .varchar 64, false, none⟩,
      ⟨.isActive, .boolean, false, some (.value (.bool true))⟩,
      ⟨.createdAt, .timestamptz, false, some .utcnow⟩,
      ⟨.updatedAt, .timestamptz, false, some .utcnow⟩,
      ⟨.deletedAt, .timestamptz, true, none⟩]
  | .idempotencyKeys =>
    [⟨.messageId, .varchar 255, false, none⟩,
      ⟨.eventType, .varchar 255, false, none⟩,
      ⟨.rawPayload, .jsonb, false, none⟩,
      ⟨.enrichedPayload, .jsonb, true, none⟩,
      ⟨.status, .varchar 50, false, some (.value (.text (py "received")))⟩,
      ⟨.receivedAt, .timestamptz, false, some .utcnow⟩,
      ⟨.enrichedAt, .timestamptz, true, none⟩,
      ⟨.dispatchedAt, .timestamptz, true, none⟩,
      ⟨.error, .text, true, none⟩,
      ⟨.reconcileCount, .integer, false, some (.value (.int 0))⟩]
  | .deliveryAttempts =>
    [⟨.id, .uuid, false, some .uuid4⟩,
      ⟨.messageId, .varchar 255, false, none⟩,
      ⟨.subscriberId, .uuid, false, none⟩,
      ⟨.status, .varchar 50, false, some (.value (.text (py "pending")))⟩,
      ⟨.attemptCount, .integer, false, some (.value (.int 0))⟩,
      ⟨.nextAttemptAt, .timestamptz, false, some .utcnow⟩,
      ⟨.lastAttemptAt, .timestamptz, true, none⟩,
      ⟨.lastHttpStatus, .integer, true, none⟩,
      ⟨.lastError, .text, true, none⟩,
      ⟨.createdAt, .timestamptz, false, some .utcnow⟩,
      ⟨.updatedAt, .timestamptz, false, some .utcnow⟩]

def primaryKey : TableName → ColumnName
  | .subscribers => .id
  | .idempotencyKeys => .messageId
  | .deliveryAttempts => .id

/-- The column as `CREATE TABLE` declares it: without a DEFAULT clause. -/
def OrmColumn.ddl (c : OrmColumn) : Column ColumnName SqlValue :=
  ⟨c.name, c.type.accepts, c.nullable, none⟩

/-- Every default of the ORM that is a value may stand in its column. -/
theorem ormDefault_accepted (n : TableName) :
    ∀ c ∈ ormColumns n, ∀ v, c.default = some (.value v) → c.type.accepts v = true := by
  have key : ∀ n, ∀ c ∈ ormColumns n,
      (match c.default with | some (.value v) => c.type.accepts v | _ => true) = true := by
    intro n
    cases n <;> decide
  intro c hc v hv
  simpa only [hv] using key n c hc

abbrev SqlTable := Relation ColumnName SqlValue

/-- The tables that exist. -/
abbrev Database := TableName → Option SqlTable

/-- The columns of a table that `CREATE TABLE` has made. -/
def createdColumns (n : TableName) : List (Column ColumnName SqlValue) :=
  (ormColumns n).map OrmColumn.ddl

/-- No table has two columns of one name. -/
theorem createdColumns_nodup (n : TableName) :
    ((createdColumns n).map Column.name).Nodup := by
  cases n <;> decide

/-- The primary key of a table is one of its columns. -/
theorem primaryKey_mem (n : TableName) : primaryKey n ∈ (createdColumns n).map Column.name := by
  cases n <;> decide

def createTable (n : TableName) : SqlTable :=
  Relation.create (createdColumns n) (primaryKey n) (createdColumns_nodup n) (primaryKey_mem n)

/-! ## A row of `idempotency_keys` in this schema -/

/-- The text of a status. SOURCE: app/db/models.py:52 -/
def EventStatus.text : EventStatus → PyStr
  | .received => py "received"
  | .enriched => py "enriched"
  | .dispatched => py "dispatched"
  | .failed => py "failed"

/-- The columns of the row; `dispatched_at` is never written. -/
def IdempotencyKey.columns (k : IdempotencyKey) : ColumnName → Option SqlValue
  | .messageId => some (.text k.messageId)
  | .eventType => some (.text k.eventType)
  | .rawPayload => some (.jsonb k.rawPayload)
  | .enrichedPayload => k.enrichedPayload.map .jsonb
  | .status => some (.text k.status.text)
  | .receivedAt => some (.time k.receivedAt)
  | .enrichedAt => k.enrichedAt.map .time
  | .error => k.error.map .text
  | .reconcileCount => some (.int k.reconcileCount)
  | _ => none

end EventPipeline.Model

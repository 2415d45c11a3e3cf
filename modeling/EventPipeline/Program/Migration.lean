import EventPipeline.Model.Schema
import EventPipeline.Program.Consumer
import EventPipeline.Computation.Transition

/-!
# Schema creation and migration

`create_all` and the INSERT of `_insert_idempotency_key` on the schema that it leaves. The
consumer model takes this INSERT as it works on a migrated table.
-/

set_option autoImplicit false

namespace EventPipeline.Program

open EventPipeline.Model EventPipeline.Computation

/-- `Base.metadata.create_all`: create the tables that do not exist.
SOURCE: app/db/session.py:52 -/
def metadataCreateAll (db : Database) : Database := fun n => some ((db n).getD (createTable n))

/-- The statements of `_COLUMN_MIGRATIONS`. SOURCE: app/db/session.py:67-73 -/
def columnMigrations : List (TableName × Column ColumnName SqlValue) :=
  [(.idempotencyKeys, ⟨.reconcileCount, SqlType.integer.accepts, false, some (.int 0)⟩)]

/-- `ALTER TABLE ... ADD COLUMN IF NOT EXISTS`; `none` when the database rejects it. -/
def alterTable (db : Database) (m : TableName × Column ColumnName SqlValue) : Option Database :=
  ((db m.1).bind fun t => t.addColumnIfNotExists m.2).map fun t => Function.update db m.1 (some t)

/-- `_apply_migrations`. SOURCE: app/db/session.py:76-78 -/
def applyMigrations (db : Database) : Option Database := columnMigrations.foldlM alterTable db

/-- `create_all`; an exception rolls everything back. SOURCE: app/db/session.py:49-53 -/
def createAll (db : Database) : Option Database := applyMigrations (metadataCreateAll db)

def createAllRuns (n : ℕ) (db : Database) : Option Database :=
  run (fun db (_ : Unit) => createAll db) db (List.replicate n ())

/-- The columns that the INSERT of `_insert_idempotency_key` names, at time `now`.
SOURCE: app/consumer/rabbitmq.py:50-55 -/
def insertColumns (ev : NewEvent) (now : Time) : List (ColumnName × Option SqlValue) :=
  [(.messageId, some (.text ev.messageId)), (.eventType, some (.text ev.eventType)),
    (.rawPayload, some (.jsonb ev.payload)), (.status, some (.text (py "received"))),
    (.receivedAt, some (.time now))]

/-- That INSERT. SOURCE: app/consumer/rabbitmq.py:47-63 -/
def insertIdempotencyKey (ev : NewEvent) (now : Time) (t : SqlTable) :
    Relation.InsertResult ColumnName SqlValue :=
  t.insertOnConflictDoNothing (insertColumns ev now)

end EventPipeline.Program

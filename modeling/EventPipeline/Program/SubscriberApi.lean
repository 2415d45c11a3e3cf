import EventPipeline.Computation.Queries
import EventPipeline.Program.Subscribers

/-!
# The subscriber endpoints

All five endpoints of one API process over the table: `create_subscriber` from its commit to its
response, PATCH and DELETE from one await to the next, and the two that only read. A process may
end at any time, and the next one finds the table, but neither the requests nor the cache.
-/

set_option autoImplicit false

namespace EventPipeline.Program

open EventPipeline.Model EventPipeline.Computation

/-! ## The endpoints that only read -/

/-- The call can answer with `response`. SOURCE: app/api/subscribers.py:65-70 -/
def ListsSubscribers (rows : List SubscriberRow) (response : List SubscriberResponse) : Prop :=
  ∃ ordered, IsOrdered SubscriberRow.createdAt (rows.filter fun row => row.deletedAt.isNone)
    ordered ∧ response = ordered.map SubscriberRow.response

/-- `none` is a 404. SOURCE: app/api/subscribers.py:73-78 -/
def getSubscriber (id : Uuid) (rows : List SubscriberRow) : Option SubscriberResponse :=
  (getRowOr404 id rows).map SubscriberRow.response

/-! ## The process -/

/-- The check of the body of a PATCH. SOURCE: app/schemas/subscriber.py:31-40 -/
def SubscriberUpdate.valid (urlparseError : PyStr → Option PyStr) (body : SubscriberUpdate) :
    Bool := (endpointOfUpdate urlparseError body.endpoint).isOk

structure SubscriberApi where
  process : PatchProcess
  /-- the new subscriber of a POST between its commit and its response -/
  inserted : RequestId → Option Uuid

/-- The first process, with an empty table. -/
def SubscriberApi.start (now : Time) : SubscriberApi := ⟨PatchProcess.start now [], fun _ => none⟩

def SubscriberApi.rows (s : SubscriberApi) : List SubscriberRow := s.process.api.subscribers

inductive SubscriberCall where
  /-- a POST is validated, and its row is inserted and committed -/
  | insert (r : RequestId) (random : Bytes) (id : Uuid) (body : SubscriberCreate)
  /-- the refresh of a POST and its response -/
  | respond (r : RequestId)
  /-- an exception or a cancellation ends a POST after its commit -/
  | fail (r : RequestId)
  /-- a PATCH or a DELETE -/
  | request (a : PatchAction)
  /-- the process ends, and another one starts -/
  | restart

/-- The request does not get beyond its validation. -/
def rejects (urlparseError : PyStr → Option PyStr) : PatchAction → Bool
  | .start _ q => !q.body.valid urlparseError
  | _ => false

/-- The row that a POST inserts, if it does. SOURCE: app/api/subscribers.py:57-60 -/
def insertedRow (urlparseError : PyStr → Option PyStr) (s : SubscriberApi) (random : Bytes)
    (id : Uuid) (body : SubscriberCreate) : Option SubscriberRow :=
  let row := newSubscriber body id (tokenHex random) s.process.now
  if body.valid urlparseError ∧ (insertSubscriber row s.rows).isSome then some row else none

/-- The row is in the table, and POST `r` has not answered yet. -/
def SubscriberApi.insertRow (s : SubscriberApi) (r : RequestId) (row : SubscriberRow) :
    SubscriberApi where
  process := { s.process with api := { s.process.api with subscribers := s.rows ++ [row] } }
  inserted := Function.update s.inserted r (some row.id)

/-- POST `r` has ended. -/
def SubscriberApi.endCreate (s : SubscriberApi) (r : RequestId) : SubscriberApi :=
  { s with inserted := Function.update s.inserted r none }

section
variable {s : SubscriberApi} {r : RequestId} {row : SubscriberRow}

/-- An INSERT appends its row. -/
@[simp] theorem SubscriberApi.insertRow_rows : (s.insertRow r row).rows = s.rows ++ [row] := rfl

/-- The call remembers the id of the row that it has inserted. -/
@[simp] theorem SubscriberApi.insertRow_inserted :
    (s.insertRow r row).inserted = Function.update s.inserted r (some row.id) := rfl

/-- A call that has answered forgets its row. -/
@[simp] theorem SubscriberApi.endCreate_inserted :
    (s.endCreate r).inserted = Function.update s.inserted r none := rfl

end

/-- The step function of the subscriber endpoints. SOURCE: app/api/subscribers.py:53-127 -/
def subscriberApi (urlparseError : PyStr → Option PyStr) (s : SubscriberApi) :
    SubscriberCall → Option SubscriberApi
  | .insert r random id body =>
    match s.inserted r with
    | some _ => none
    | none =>
      match insertedRow urlparseError s random id body with
      | some row => some (s.insertRow r row)
      | none => some s
  | .respond r | .fail r =>
    match s.inserted r with
    | some _ => some (s.endCreate r)
    | none => none
  | .request a =>
    if rejects urlparseError a then some s
    else (patchStep s.process a).map fun p => { s with process := p }
  | .restart => some ⟨PatchProcess.start s.process.now s.rows, fun _ => none⟩

/-! ## What is answered, and what is committed -/

/-- The answers with a body of the three endpoints that write. -/
inductive SubscriberReply where
  /-- 201 of a POST -/
  | created (response : SubscriberCreatedResponse)
  /-- 200 of a PATCH -/
  | updated (response : SubscriberResponse)

/-- SOURCE: app/api/subscribers.py:61-62,87-89,98-104 -/
def replies (urlparseError : PyStr → Option PyStr) (s : SubscriberApi) :
    SubscriberCall → List SubscriberReply
  | .respond r =>
    (((s.inserted r).bind fun id => refresh id s.rows).map fun row =>
      .created ⟨row.response, row.secret⟩).toList
  | .request (.start r q) =>
    match s.process.calls r with
    | .idle =>
      if rejects urlparseError (.start r q) then []
      else ((cachedResponse s.process.now q s.process.api.cache).map .updated).toList
    | _ => []
  | .request (.finish r) =>
    match s.process.calls r with
    | .refreshed _ row => [.updated row.response]
    | _ => []
  | _ => []

/-- The transactions that change the table. -/
inductive SubscriberCommit where
  | created (row : SubscriberRow)
  | patched (id : Uuid) (body : SubscriberUpdate)
  | deleted (id : Uuid)

/-- SOURCE: app/api/subscribers.py:59-60,91-97,112-114 -/
def commits (urlparseError : PyStr → Option PyStr) (s : SubscriberApi) :
    SubscriberCall → List SubscriberCommit
  | .insert r random id body =>
    match s.inserted r with
    | some _ => []
    | none => ((insertedRow urlparseError s random id body).map .created).toList
  | .request (.commit r) =>
    match s.process.calls r with
    | .loaded q sub => [.patched sub.id q.body]
    | .deleting sub => [.deleted sub.id]
    | _ => []
  | _ => []

end EventPipeline.Program

import EventPipeline.Computation.Table
import EventPipeline.Model.Delivery

/-!
# The API calls that write the tables

`retry_delivery` and the subscriber endpoints. Each reads its row in one step and commits in
another; the flush writes the columns that the call changed.
-/

set_option autoImplicit false

namespace EventPipeline.Program

open EventPipeline.Model EventPipeline.Computation

/-! ## `retry_delivery` -/

/-- The statuses that can be retried. SOURCE: app/api/deliveries.py:60 -/
def retryable (a : DeliveryAttempt) : Bool := a.status = .dead || a.status = .failed

/-- The flush of `retry_delivery` at time `now`, for a row loaded as `loaded`.
SOURCE: app/api/deliveries.py:65-69 -/
def retryRow (loaded : DeliveryAttempt) (now : Time) (row : DeliveryAttempt) : DeliveryAttempt :=
  { row with
    status := flushColumn loaded.status .pending row.status
    nextAttemptAt := flushColumn loaded.nextAttemptAt now row.nextAttemptAt
    lastError := flushColumn loaded.lastError none row.lastError
    updatedAt := flushColumn loaded.updatedAt now row.updatedAt }

inductive RetryAction where
  | select (id : Uuid)
  | commit
  | abort

/-- The step function of `retry_delivery` call `r`. A row that is missing or has another
status is answered with 404 or 409. SOURCE: app/api/deliveries.py:50-71 -/
def retryDelivery (now : Time) (d : Delivery) (r : RequestId) : RetryAction → Option Delivery
  | .select id =>
    match d.retries r with
    | .idle =>
      match lookup DeliveryAttempt.id id d.attempts with
      | some a => if retryable a then some (d.setRetry r (.loaded a)) else some d
      | none => some d
    | .loaded _ => none
  | .commit =>
    match d.retries r with
    | .loaded a =>
      if a.id ∈ d.locked then none
      else
        some ({ d with
          attempts := updateWhere (fun row => row.id = a.id) (retryRow a now) d.attempts }.setRetry
          r .idle)
    | .idle => none
  | .abort =>
    match d.retries r with
    | .loaded _ => some (d.setRetry r .idle)
    | .idle => none

/-! ## Subscribers -/

/-- The body of a PATCH. SOURCE: app/schemas/subscriber.py:31-33 -/
structure SubscriberUpdate where
  endpoint : Option PyStr
  isActive : Option Bool

/-- One PATCH or DELETE in progress. -/
inductive SubscriberRequest where
  | idle
  | patching (sub : Subscriber) (body : SubscriberUpdate)
  | deleting (sub : Subscriber)

/-- The flush of a PATCH. SOURCE: app/api/subscribers.py:91-96 -/
def patchRow (loaded : Subscriber) (body : SubscriberUpdate) (now : Time) (row : Subscriber) :
    Subscriber :=
  { row with
    endpoint :=
      match body.endpoint with
      | some e => flushColumn loaded.endpoint e row.endpoint
      | none => row.endpoint
    isActive :=
      match body.isActive with
      | some b => flushColumn loaded.isActive b row.isActive
      | none => row.isActive
    updatedAt := flushColumn loaded.updatedAt now row.updatedAt }

section
variable {loaded row : Subscriber} {body : SubscriberUpdate} {now : Time}

/-- The row has the endpoint of the body, if nobody else has written it since it was loaded.
SOURCE: app/api/subscribers.py:92-93 -/
theorem endpoint_patchRow_eq (h : row.endpoint = loaded.endpoint) :
    (patchRow loaded body now row).endpoint = body.endpoint.getD row.endpoint := by
  unfold patchRow
  cases body.endpoint with
  | none => rfl
  | some e => exact h ▸ flushColumn_loaded _ _

/-- SOURCE: app/api/subscribers.py:94-95 -/
theorem isActive_patchRow_eq (h : row.isActive = loaded.isActive) :
    (patchRow loaded body now row).isActive = body.isActive.getD row.isActive := by
  unfold patchRow
  cases body.isActive with
  | none => rfl
  | some b => exact h ▸ flushColumn_loaded _ _

/-- The row as it was loaded, after the flush. SOURCE: app/api/subscribers.py:91-96 -/
theorem patchRow_loaded (loaded : Subscriber) (body : SubscriberUpdate) (now : Time) :
    patchRow loaded body now loaded =
      { loaded with
        endpoint := body.endpoint.getD loaded.endpoint
        isActive := body.isActive.getD loaded.isActive
        updatedAt := now } := by
  obtain ⟨endpoint, isActive⟩ := body
  cases endpoint <;> cases isActive <;> simp [patchRow, flushColumn_loaded]

end

/-- The flush of a DELETE; `updated_at` is set by its `onupdate`.
SOURCE: app/api/subscribers.py:111-114 -/
def deleteRow (loaded : Subscriber) (now : Time) (row : Subscriber) : Subscriber :=
  { row with
    deletedAt := flushColumn loaded.deletedAt (some now) row.deletedAt
    isActive := flushColumn loaded.isActive false row.isActive
    updatedAt := now }

/-- The SELECT of `_get_or_404`. SOURCE: app/api/subscribers.py:117-127 -/
def getOr404 (id : Uuid) (subscribers : List Subscriber) : Option Subscriber :=
  (lookup Subscriber.id id subscribers).filter fun s => s.deletedAt.isNone

/-- The table of subscribers with the PATCH and DELETE calls in progress. -/
structure Registry where
  subscribers : List Subscriber
  requests : RequestId → SubscriberRequest

def Registry.init : Registry := ⟨[], fun _ => .idle⟩

def Registry.setRequest (g : Registry) (r : RequestId) (x : SubscriberRequest) : Registry :=
  { g with requests := Function.update g.requests r x }

inductive SubscriberAction where
  | create (id : Uuid) (endpoint secret : PyStr)
  | patch (id : Uuid) (body : SubscriberUpdate)
  | delete (id : Uuid)
  | commit
  | abort

/-- The step function of the subscriber endpoints. SOURCE: app/api/subscribers.py:50-127 -/
def subscriber (now : Time) (g : Registry) (r : RequestId) : SubscriberAction → Option Registry
  | .create id endpoint secret =>
    if id ∈ g.subscribers.map Subscriber.id then none
    else some { g with subscribers := g.subscribers ++ [⟨id, endpoint, secret, true, now, none⟩] }
  | .patch id body =>
    match g.requests r with
    | .idle =>
      match getOr404 id g.subscribers with
      | some s => some (g.setRequest r (.patching s body))
      | none => some g
    | _ => none
  | .delete id =>
    match g.requests r with
    | .idle =>
      match getOr404 id g.subscribers with
      | some s => some (g.setRequest r (.deleting s))
      | none => some g
    | _ => none
  | .commit =>
    match g.requests r with
    | .patching s body =>
      some ({ g with
        subscribers :=
          updateWhere (fun x => x.id = s.id) (patchRow s body now) g.subscribers }.setRequest r .idle)
    | .deleting s =>
      some ({ g with
        subscribers :=
          updateWhere (fun x => x.id = s.id) (deleteRow s now) g.subscribers }.setRequest r .idle)
    | .idle => none
  | .abort =>
    match g.requests r with
    | .idle => none
    | _ => some (g.setRequest r .idle)

end EventPipeline.Program

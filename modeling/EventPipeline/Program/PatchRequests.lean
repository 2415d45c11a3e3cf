import EventPipeline.Computation.ExpiringCache
import EventPipeline.Program.Api

/-!
# PATCH requests with an idempotency key

The endpoint `update_subscriber` of one API process with its response cache. The rows have
here the two columns that only the response reads. `updateSubscriber` is one request from its
start to its end; `patchStep` takes a request from one await to the next, with any number of
requests in progress.
-/

set_option autoImplicit false

namespace EventPipeline.Program

open EventPipeline.Model EventPipeline.Computation

/-- A row of `subscribers`, all columns. SOURCE: app/db/models.py:28-41 -/
structure SubscriberRow extends Subscriber where
  name : PyStr
  createdAt : Time

/-- SOURCE: app/schemas/subscriber.py:44-51 -/
structure SubscriberResponse where
  id : Uuid
  name : PyStr
  endpoint : PyStr
  isActive : Bool
  createdAt : Time
  deriving DecidableEq

/-- `SubscriberResponse.model_validate`. SOURCE: app/api/subscribers.py:99 -/
def SubscriberRow.response (row : SubscriberRow) : SubscriberResponse :=
  ⟨row.id, row.name, row.endpoint, row.isActive, row.createdAt⟩

/-! ## The cache -/

abbrev PatchCache := ExpiringCache PyStr SubscriberResponse

/-- `_PATCH_IDEMPOTENCY_TTL`. SOURCE: app/api/subscribers.py:30 -/
def patchIdempotencyTtl : Time := seconds 60

/-- SOURCE: app/api/subscribers.py:33-37 -/
def getCachedPatch (now : Time) (key : PyStr) (cache : PatchCache) : Option SubscriberResponse :=
  cache.get patchIdempotencyTtl now key

/-- SOURCE: app/api/subscribers.py:40-47 -/
def cachePatchResult (now : Time) (key : PyStr) (result : SubscriberResponse)
    (cache : PatchCache) : PatchCache :=
  cache.put patchIdempotencyTtl now key result

/-- A call of one of the two functions. -/
inductive CacheCall where
  | getCachedPatch (key : PyStr)
  | cachePatchResult (key : PyStr) (result : SubscriberResponse)

/-- The cache with the last reading of the monotonic clock. -/
structure CacheProcess where
  clock : Time
  cache : PatchCache

def CacheProcess.start (clock : Time) : CacheProcess := ⟨clock, []⟩

/-- The calls come one after the other, at times that do not go back.
SOURCE: app/api/subscribers.py:33-47 -/
def callCache (s : CacheProcess) : Time × CacheCall → Option CacheProcess
  | (t, call) =>
    if s.clock ≤ t then
      match call with
      | .getCachedPatch _ => some { s with clock := t }
      | .cachePatchResult key result => some ⟨t, cachePatchResult t key result s.cache⟩
    else none

/-- What a call of `_get_cached_patch` returns. -/
def cacheReturns (s : CacheProcess) : Time × CacheCall → List (Option SubscriberResponse)
  | (t, .getCachedPatch key) => [getCachedPatch t key s.cache]
  | (_, .cachePatchResult _ _) => []

/-- One API process: the table that it works on, and its cache. -/
structure PatchApi where
  subscribers : List SubscriberRow
  cache : PatchCache

/-! ## One request -/

/-- The path parameter, the body and the header of a PATCH.
SOURCE: app/api/subscribers.py:79-83 -/
structure PatchRequest where
  id : Uuid
  body : SubscriberUpdate
  xIdempotencyKey : Option PyStr

/-- A missing header and an empty one are falsy. SOURCE: app/api/subscribers.py:86,101 -/
def PatchRequest.key (q : PatchRequest) : Option PyStr := q.xIdempotencyKey.filter fun k => k ≠ []

/-- The cached response that the request is answered with. SOURCE: app/api/subscribers.py:86-89 -/
def cachedResponse (now : Time) (q : PatchRequest) (cache : PatchCache) :
    Option SubscriberResponse :=
  q.key.bind fun k => getCachedPatch now k cache

/-- SOURCE: app/api/subscribers.py:101-102 -/
def cacheResponse (now : Time) (q : PatchRequest) (result : SubscriberResponse)
    (cache : PatchCache) : PatchCache :=
  match q.key with
  | some k => cachePatchResult now k result cache
  | none => cache

section
variable {now : Time} {q : PatchRequest} {r : SubscriberResponse} {cache : PatchCache}

/-- Caching a response keeps the keys of the cache unique. -/
theorem unique_cacheResponse (h : cache.Unique) : (cacheResponse now q r cache).Unique := by
  unfold cacheResponse
  cases q.key with
  | none => exact h
  | some k => exact h.put

/-- The cache then has the new response under the key of the request, and the responses under
other keys. Without a key nothing is evicted. -/
theorem mem_cacheResponse_iff {e : CacheEntry PyStr SubscriberResponse} :
    e ∈ cacheResponse now q r cache ↔
      (q.key = some e.key ∧ e.storedAt = now ∧ e.value = r) ∨
      (e ∈ cache ∧ q.key ≠ some e.key ∧
        (q.key ≠ none → e.live patchIdempotencyTtl now = true)) := by
  unfold cacheResponse
  cases hk : q.key with
  | none => simp
  | some k =>
    obtain ⟨key, storedAt, value⟩ := e
    have hkeys : key ≠ k ↔ some k ≠ some key :=
      ⟨fun h heq => h (Option.some.inj heq).symm, fun h heq => h (by rw [heq])⟩
    simp only [cachePatchResult, ExpiringCache.mem_put, CacheEntry.mk.injEq, hkeys,
      Option.some.injEq, ne_eq, reduceCtorEq, not_false_eq_true, true_imp_iff, eq_comm (a := key)]

end

/-- The SELECT of `_get_or_404`. SOURCE: app/api/subscribers.py:117-127 -/
def getRowOr404 (id : Uuid) (subscribers : List SubscriberRow) : Option SubscriberRow :=
  (lookup (fun row => row.id) id subscribers).filter fun row => row.deletedAt.isNone

/-- The flush of a PATCH for a row loaded as `sub`. SOURCE: app/api/subscribers.py:91-97 -/
def commitPatch (sub : SubscriberRow) (body : SubscriberUpdate) (now : Time)
    (subscribers : List SubscriberRow) : List SubscriberRow :=
  updateWhere (fun row => row.id = sub.id)
    (fun row => { row with toSubscriber := patchRow sub.toSubscriber body now row.toSubscriber })
    subscribers

/-- The flush of a DELETE. SOURCE: app/api/subscribers.py:112-114 -/
def commitDelete (sub : SubscriberRow) (now : Time) (subscribers : List SubscriberRow) :
    List SubscriberRow :=
  updateWhere (fun row => row.id = sub.id)
    (fun row => { row with toSubscriber := deleteRow sub.toSubscriber now row.toSubscriber })
    subscribers

/-- `db.refresh`: the row as the table has it. SOURCE: app/api/subscribers.py:98 -/
def refresh (id : Uuid) (subscribers : List SubscriberRow) : Option SubscriberRow :=
  lookup (fun row => row.id) id subscribers

inductive PatchReply where
  /-- 200 with a response from the cache -/
  | cached (response : SubscriberResponse)
  /-- 200 after the commit -/
  | updated (response : SubscriberResponse)
  /-- 404 -/
  | notFound
  /-- 500: the row to refresh is gone -/
  | failed

/-- The body of a 200. -/
def PatchReply.ok : PatchReply → Option SubscriberResponse
  | .cached response | .updated response => some response
  | .notFound | .failed => none

/-- A whole PATCH request: the cache is read at time `lookupAt` of the monotonic clock and
written at `storedAt`, and `now` is the wall clock for `updated_at`.
SOURCE: app/api/subscribers.py:78-104 -/
def updateSubscriber (lookupAt now storedAt : Time) (q : PatchRequest) (s : PatchApi) :
    PatchReply × PatchApi :=
  match cachedResponse lookupAt q s.cache with
  | some cached => (.cached cached, s)
  | none =>
    match getRowOr404 q.id s.subscribers with
    | none => (.notFound, s)
    | some sub =>
      let subscribers := commitPatch sub q.body now s.subscribers
      match refresh q.id subscribers with
      | none => (.failed, { s with subscribers := subscribers })
      | some row =>
        (.updated row.response,
          { subscribers := subscribers, cache := cacheResponse storedAt q row.response s.cache })

/-- A whole DELETE request. SOURCE: app/api/subscribers.py:107-114 -/
def deleteSubscriber (now : Time) (id : Uuid) (s : PatchApi) : PatchApi :=
  match getRowOr404 id s.subscribers with
  | none => s
  | some sub => { s with subscribers := commitDelete sub now s.subscribers }

/-! ## One request after the other -/

/-- The process between two requests, with the last reading of its monotonic clock. -/
structure PatchService where
  clock : Time
  api : PatchApi

/-- A process that has just started. -/
def PatchService.start (clock : Time) (subscribers : List SubscriberRow) : PatchService :=
  ⟨clock, ⟨subscribers, []⟩⟩

inductive ServiceRequest where
  | patch (q : PatchRequest) (lookupAt now storedAt : Time)
  | delete (id : Uuid) (now : Time)

/-- The requests are served in order, at times that do not go back. -/
def serve (s : PatchService) : ServiceRequest → Option PatchService
  | .patch q lookupAt now storedAt =>
    if s.clock ≤ lookupAt ∧ lookupAt ≤ storedAt then
      some ⟨storedAt, (updateSubscriber lookupAt now storedAt q s.api).2⟩
    else none
  | .delete id now => some { s with api := deleteSubscriber now id s.api }

/-! ## Requests in progress -/

/-- One request; it stops at every await of the source. -/
inductive PatchCall where
  | idle
  /-- the cache had no answer, before the SELECT -/
  | selecting (q : PatchRequest)
  /-- before the commit -/
  | loaded (q : PatchRequest) (sub : SubscriberRow)
  /-- before the refresh -/
  | committed (q : PatchRequest)
  /-- the row is refreshed, before the response is stored -/
  | refreshed (q : PatchRequest) (row : SubscriberRow)
  /-- a DELETE before its commit -/
  | deleting (sub : SubscriberRow)

/-- One API process with the requests that it is serving. -/
structure PatchProcess where
  now : Time
  api : PatchApi
  calls : RequestId → PatchCall

/-- A process that has just started. -/
def PatchProcess.start (now : Time) (subscribers : List SubscriberRow) : PatchProcess :=
  ⟨now, ⟨subscribers, []⟩, fun _ => .idle⟩

def PatchProcess.setCall (s : PatchProcess) (r : RequestId) (x : PatchCall) : PatchProcess :=
  { s with calls := Function.update s.calls r x }

/-- A request is in the state that was set for it. -/
@[simp] theorem PatchProcess.setCall_self (s : PatchProcess) (r : RequestId) (x : PatchCall) :
    (s.setCall r x).calls r = x := Function.update_self _ _ _

/-- The other requests stay as they are. -/
theorem PatchProcess.setCall_of_ne {s : PatchProcess} {r r' : RequestId} {x : PatchCall}
    (h : r' ≠ r) : (s.setCall r x).calls r' = s.calls r' := Function.update_of_ne h _ _

/-- The state of a request is no part of the table or the cache. -/
@[simp] theorem PatchProcess.setCall_api (s : PatchProcess) (r : RequestId) (x : PatchCall) :
    (s.setCall r x).api = s.api := rfl

inductive PatchAction where
  | tick (d : Time)
  /-- a PATCH arrives, and the cache is looked up -/
  | start (r : RequestId) (q : PatchRequest)
  /-- the SELECT of a PATCH -/
  | select (r : RequestId)
  /-- flush and COMMIT -/
  | commit (r : RequestId)
  | refresh (r : RequestId)
  /-- the response is stored and returned -/
  | finish (r : RequestId)
  /-- a DELETE arrives, and its SELECT is done -/
  | delete (r : RequestId) (id : Uuid)
  /-- an exception or a cancellation ends the request -/
  | abort (r : RequestId)

/-- The step function of `update_subscriber` and `delete_subscriber`.
SOURCE: app/api/subscribers.py:78-127 -/
def patchStep (s : PatchProcess) : PatchAction → Option PatchProcess
  | .tick d => some { s with now := s.now + d }
  | .start r q =>
    match s.calls r with
    | .idle =>
      match cachedResponse s.now q s.api.cache with
      | some _ => some s
      | none => some (s.setCall r (.selecting q))
    | _ => none
  | .select r =>
    match s.calls r with
    | .selecting q =>
      match getRowOr404 q.id s.api.subscribers with
      | some sub => some (s.setCall r (.loaded q sub))
      | none => some (s.setCall r .idle)
    | _ => none
  | .commit r =>
    match s.calls r with
    | .loaded q sub =>
      some ({ s with
        api := { s.api with
          subscribers := commitPatch sub q.body s.now s.api.subscribers } }.setCall r (.committed q))
    | .deleting sub =>
      some ({ s with
        api := { s.api with
          subscribers := commitDelete sub s.now s.api.subscribers } }.setCall r .idle)
    | _ => none
  | .refresh r =>
    match s.calls r with
    | .committed q =>
      match Program.refresh q.id s.api.subscribers with
      | some row => some (s.setCall r (.refreshed q row))
      | none => some (s.setCall r .idle)
    | _ => none
  | .finish r =>
    match s.calls r with
    | .refreshed q row =>
      some ({ s with
        api := { s.api with
          cache := cacheResponse s.now q row.response s.api.cache } }.setCall r .idle)
    | _ => none
  | .delete r id =>
    match s.calls r with
    | .idle =>
      match getRowOr404 id s.api.subscribers with
      | some sub => some (s.setCall r (.deleting sub))
      | none => some s
    | _ => none
  | .abort r =>
    match s.calls r with
    | .idle => none
    | _ => some (s.setCall r .idle)

end EventPipeline.Program

import EventPipeline.Computation.Table
import EventPipeline.Model.Delivery
import EventPipeline.Program.Backoff

/-!
# The delivery worker

`deliver`, `_deliver_attempt`, `_process_batch` and `_reset_stale_in_flight`, and the step
function of a worker process that is made of them. What the endpoint and the random generator
decide is in the action.
-/

set_option autoImplicit false

namespace EventPipeline.Program

open EventPipeline.Model EventPipeline.Computation

/-! ## `deliver` -/

/-- How `client.post` ends. -/
inductive PostOutcome where
  /-- a response; the text is `none` when reading `resp.text` raises -/
  | response (statusCode : ℕ) (text : Option PyStr)
  /-- `httpx.TimeoutException` -/
  | timeout (exc : PyStr)
  /-- another `httpx.RequestError` -/
  | requestError (exc : PyStr)
  /-- an exception that is neither, such as `httpx.InvalidURL` -/
  | raised

def httpText (statusCode : Option ℕ) : PyStr :=
  py "HTTP " ++ (statusCode.map decimal).getD (py "None")

/-- The result that `deliver` makes of the outcome, or `none` when the exception escapes.
SOURCE: app/delivery/sender.py:65-90 -/
def deliver : PostOutcome → Option DeliveryResult
  | .response statusCode text =>
    let success := 200 ≤ statusCode && statusCode < 300
    some
      { success := success
        statusCode := some statusCode
        error :=
          if success then none
          else some ((text.map fun t => t.take 500).getD (httpText (some statusCode))) }
  | .timeout exc => some ⟨false, none, some (py "timeout: " ++ exc)⟩
  | .requestError exc => some ⟨false, none, some exc⟩
  | .raised => none

/-! ## The final update of a row -/

/-- `result.error or f"HTTP {result.status_code}"`. -/
def errorText (r : DeliveryResult) : PyStr :=
  match r.error with
  | some e => if e.isEmpty then httpText r.statusCode else e
  | none => httpText r.statusCode

/-- The values of the final UPDATE that depend on the outcome. -/
structure FinalUpdate where
  status : DeliveryStatus
  nextAttemptAt : Time
  lastError : Option PyStr

/-- The branches of `_deliver_attempt` after `deliver` has returned at time `now`; `none` when
`_backoff_seconds` or the date of the retry raises. The new count comes from the snapshot.
SOURCE: app/delivery/worker.py:126-158 -/
def finalUpdate (cfg : Settings) (attempt : DeliveryAttempt) (r : DeliveryResult) (now : Time)
    (k : Draw) : Option FinalUpdate :=
  if r.success then some ⟨.delivered, now, none⟩
  else if cfg.deliveryMaxAttempts ≤ attempt.attemptCount + 1 then
    some ⟨.dead, now, some (errorText r)⟩
  else
    (retryAt cfg (attempt.attemptCount + 1) now k).map fun nextAttemptAt =>
      ⟨.failed, nextAttemptAt, some (errorText r)⟩

/-- The new version of the row. SOURCE: app/delivery/worker.py:164-172 -/
def FinalUpdate.apply (u : FinalUpdate) (attempt : DeliveryAttempt) (r : DeliveryResult)
    (now : Time) (row : DeliveryAttempt) : DeliveryAttempt :=
  { row with
    status := u.status
    attemptCount := attempt.attemptCount + 1
    lastAttemptAt := some now
    lastHttpStatus := r.statusCode
    lastError := u.lastError
    nextAttemptAt := u.nextAttemptAt
    updatedAt := now }

def updateAttempt (id : Uuid) (f : DeliveryAttempt → DeliveryAttempt) (t : List DeliveryAttempt) :
    List DeliveryAttempt :=
  updateWhere (fun a => a.id = id) f t

/-- The rest of `_deliver_attempt` after `deliver` has returned: compute the update and
execute it, keyed by the id only. `none` when an exception escapes, also from the database,
whose TEXT column takes storable text only. SOURCE: app/delivery/worker.py:125-174 -/
def writeBack (cfg : Settings) (attempt : DeliveryAttempt) (r : DeliveryResult) (now : Time)
    (k : Draw) (t : List DeliveryAttempt) : Option (List DeliveryAttempt) :=
  (finalUpdate cfg attempt r now k).bind fun u =>
    if u.lastError.all Json.storable then
      some (updateAttempt attempt.id (u.apply attempt r now) t)
    else none

/-- A final update that was stored is the one that `finalUpdate` computes. -/
theorem writeBack_eq_some {cfg : Settings} {a : DeliveryAttempt} {r : DeliveryResult}
    {now : Time} {k : Draw} {t t' : List DeliveryAttempt} (h : writeBack cfg a r now k t = some t') :
    ∃ u, finalUpdate cfg a r now k = some u ∧ t' = updateAttempt a.id (u.apply a r now) t := by
  unfold writeBack at h
  obtain ⟨u, hu, hif⟩ := Option.bind_eq_some_iff.1 h
  split at hif
  · cases hif
    exact ⟨u, hu, rfl⟩
  · cases hif

def inactiveError : PyStr := py "subscriber inactive or deleted"

/-- The UPDATE for such a row; `updated_at` is set by its `onupdate`.
SOURCE: app/delivery/worker.py:109-117 -/
def closeInactive (attempt : DeliveryAttempt) (now : Time) (t : List DeliveryAttempt) :
    List DeliveryAttempt :=
  updateAttempt attempt.id
    (fun row => { row with status := .dead, lastError := some inactiveError, updatedAt := now }) t

/-! ## Claim and stale reset -/

/-- The WHERE clause of the claim. SOURCE: app/delivery/worker.py:67-70 -/
def claimable (now : Time) (a : DeliveryAttempt) : Bool :=
  (a.status = .pending || a.status = .failed) && a.nextAttemptAt ≤ now

/-- The UPDATE that marks the claimed rows. SOURCE: app/delivery/worker.py:84-88 -/
def markInFlight (ids : List Uuid) (now : Time) (t : List DeliveryAttempt) : List DeliveryAttempt :=
  updateWhere (fun a => a.id ∈ ids) (fun a => { a with status := .inFlight, updatedAt := now }) t

/-- The WHERE clause of the stale reset, with the cutoff of time `t₀`.
SOURCE: app/delivery/worker.py:38-47 -/
def staleInFlight (cfg : Settings) (t₀ : Time) (a : DeliveryAttempt) : Bool :=
  a.status = .inFlight && a.updatedAt + cfg.deliveryStaleInFlight < t₀

def resetError : PyStr := py "reset by worker startup (stale in_flight)"

/-- `_reset_stale_in_flight` at time `t₀`. SOURCE: app/delivery/worker.py:36-55 -/
def resetStaleInFlight (cfg : Settings) (t₀ : Time) (t : List DeliveryAttempt) :
    List DeliveryAttempt :=
  updateWhere (fun a => staleInFlight cfg t₀ a = true)
    (fun a =>
      { a with status := .failed, lastError := some resetError, nextAttemptAt := t₀, updatedAt := t₀ })
    t

/-- The row `id` with its event, as the claim loads them. -/
def snapshotOf (attempts : List DeliveryAttempt) (keys : List IdempotencyKey) (id : Uuid) :
    Option Snapshot :=
  (lookup DeliveryAttempt.id id attempts).bind fun a =>
    (lookup IdempotencyKey.messageId a.messageId keys).map fun ik => ⟨a, ik⟩

/-- `ik.enriched_payload or ik.raw_payload`. SOURCE: app/delivery/worker.py:120 -/
def deliveredPayload (ik : IdempotencyKey) : Json :=
  match ik.enrichedPayload with
  | some v => if v.truthy then v else ik.rawPayload
  | none => ik.rawPayload

/-- The call of `deliver` for a claimed row. SOURCE: app/delivery/worker.py:123 -/
def postOf (a : Snapshot) (sub : Subscriber) : Post where
  deliveryId := a.attempt.id
  endpoint := sub.endpoint
  secret := sub.secret
  eventType := a.event.eventType
  payload := deliveredPayload a.event
  messageId := a.attempt.messageId
  subscriberId := a.attempt.subscriberId

/-! ## The step function -/

inductive WorkerAction where
  /-- the SELECT ... FOR UPDATE SKIP LOCKED of a batch started at time `t₀` -/
  | claim (t₀ : Time) (picks : List Uuid)
  | claimCommit
  /-- `session.get` of the next row's subscriber -/
  | fetch
  /-- the subscriber does not receive: close the row -/
  | close
  /-- `deliver` is called -/
  | post
  /-- `deliver` returns or raises -/
  | postEnds (o : PostOutcome)
  /-- the final UPDATE and its commit; a backoff draws `k` -/
  | writeBack (k : Draw)
  /-- `_process_batch` returns -/
  | finish
  /-- a database call raises -/
  | dbError
  /-- the startup reset or the periodic one -/
  | resetStale (t₀ : Time)
  | crash

/-- The step function of worker process `w`. An exception ends the batch: the run loop logs
it and goes on with the next batch. SOURCE: app/delivery/worker.py:58-201 -/
def worker (cfg : Settings) (now : Time) (subscribers : List Subscriber)
    (keys : List IdempotencyKey) (d : Delivery) (w : WorkerId) : WorkerAction → Option Delivery
  | .claim t₀ picks =>
    match (d.workers w).phase with
    | .idle =>
      if t₀ ≤ now ∧ picks ≠ [] ∧ picks.Nodup ∧ picks.length ≤ cfg.deliveryBatchSize ∧
          ∀ id ∈ picks, id ∉ d.locked ∧
            (snapshotOf d.attempts keys id).any (fun a => claimable t₀ a.attempt) = true
      then
        some ({ d with rowLocks := d.rowLocks ++ picks.map fun id => (w, id) }.setPhase w
          (.claiming t₀ (picks.filterMap (snapshotOf d.attempts keys))))
      else none
    | _ => none
  | .claimCommit =>
    match (d.workers w).phase with
    | .claiming t₀ picked =>
      let ids := picked.map fun a => a.attempt.id
      some ({ d.unlock w with attempts := markInFlight ids t₀ d.attempts }.setWorker w
        ⟨.delivering picked, (d.workers w).held ++ ids⟩)
    | _ => none
  | .fetch =>
    match (d.workers w).phase with
    | .delivering (a :: todo) =>
      some (d.setPhase w
        (.fetched a (lookup Subscriber.id a.attempt.subscriberId subscribers) todo))
    | _ => none
  | .close =>
    match (d.workers w).phase with
    | .fetched a sub todo =>
      if sub.any Subscriber.receives || a.attempt.id ∈ d.locked then none
      else
        some ((({ d with attempts := closeInactive a.attempt now d.attempts } : Delivery).setPhase w
          (.delivering todo)).release w a.attempt.id)
    | _ => none
  | .post =>
    match (d.workers w).phase with
    | .fetched a (some sub) todo =>
      if sub.receives then
        some ({ d with posts := d.posts ++ [postOf a sub] }.setPhase w (.posting a sub todo))
      else none
    | _ => none
  | .postEnds o =>
    match (d.workers w).phase with
    | .posting a _ todo =>
      match deliver o with
      | some r => some (d.setPhase w (.posted a r now todo))
      | none => some (d.setPhase w .idle)
    | _ => none
  | .writeBack k =>
    match (d.workers w).phase with
    | .posted a r at' todo =>
      if a.attempt.id ∈ d.locked then none
      else
        match Program.writeBack cfg a.attempt r at' k d.attempts with
        | some attempts =>
          some ((({ d with attempts := attempts } : Delivery).setPhase w (.delivering todo)).release
            w a.attempt.id)
        | none => some (d.setPhase w .idle)
    | _ => none
  | .finish =>
    match (d.workers w).phase with
    | .delivering [] => some (d.setPhase w .idle)
    | _ => none
  | .dbError =>
    match (d.workers w).phase with
    | .idle | .posting _ _ _ => none
    | _ => some ((d.unlock w).setPhase w .idle)
  | .resetStale t₀ =>
    if t₀ ≤ now then some { d with attempts := resetStaleInFlight cfg t₀ d.attempts } else none
  | .crash => some ((d.unlock w).setWorker w ⟨.idle, []⟩)

end EventPipeline.Program

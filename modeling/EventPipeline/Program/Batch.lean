import EventPipeline.Program.Worker

/-!
# A batch delivered from start to end

`_process_batch` as one function, for a batch that no other process interferes with. It is
made of the same functions as the step function of a worker; what the endpoints, the clock
and the random generator decide is in a `RowEnv` for each row. `retryRun` repeats it for one
row as long as that row becomes due.
-/

set_option autoImplicit false

namespace EventPipeline.Program

open EventPipeline.Model EventPipeline.Computation

/-- What the outside does while one row is delivered. -/
structure RowEnv where
  /-- what `session.get` returns -/
  sub : Option Subscriber
  outcome : PostOutcome
  /-- the time when the row is closed, or when `deliver` has returned -/
  at' : Time
  draw : Draw

/-- `_deliver_attempt`; `none` when an exception leaves it, which is before its UPDATE takes
effect. SOURCE: app/delivery/worker.py:101-174 -/
def deliverAttempt (cfg : Settings) (a : Snapshot) (e : RowEnv) (t : List DeliveryAttempt) :
    Option (List DeliveryAttempt) :=
  if e.sub.any Subscriber.receives then
    (deliver e.outcome).bind fun r => writeBack cfg a.attempt r e.at' e.draw t
  else some (closeInactive a.attempt e.at' t)

/-- The loop over the batch: the table when it ends, and whether an exception has ended it.
SOURCE: app/delivery/worker.py:91-94 -/
def deliverBatch (cfg : Settings) :
    List (Snapshot × RowEnv) → List DeliveryAttempt → List DeliveryAttempt × Bool
  | [], t => (t, false)
  | (a, e) :: rest, t =>
    match deliverAttempt cfg a e t with
    | some t' => deliverBatch cfg rest t'
    | none => (t, true)

/-- `_process_batch` started at time `t₀`, once its SELECT has returned the rows of the batch.
SOURCE: app/delivery/worker.py:58-98 -/
def processBatch (cfg : Settings) (t₀ : Time) (batch : List (Snapshot × RowEnv))
    (t : List DeliveryAttempt) : List DeliveryAttempt × Bool :=
  deliverBatch cfg batch (markInFlight (batch.map fun p => p.1.attempt.id) t₀ t)

/-! ## The requests -/

/-- The call of `deliver` in `_deliver_attempt`, if there is one.
SOURCE: app/delivery/worker.py:110-123 -/
def attemptPosts (a : Snapshot) (e : RowEnv) : List Post :=
  match e.sub with
  | some sub => if sub.receives then [postOf a sub] else []
  | none => []

/-- The calls of `deliver` in the loop over the batch. -/
def batchPosts (cfg : Settings) : List (Snapshot × RowEnv) → List DeliveryAttempt → List Post
  | [], _ => []
  | (a, e) :: rest, t =>
    attemptPosts a e ++
      match deliverAttempt cfg a e t with
      | some t' => batchPosts cfg rest t'
      | none => []

/-! ## One row, each time it becomes due -/

/-- One time that the row is claimed, with an active subscriber and an endpoint of which
`deliver` returns a result. -/
structure RetryRound where
  /-- from the due time to the start of the batch -/
  wait : Time
  /-- from there until `deliver` has returned -/
  latency : Time
  event : IdempotencyKey
  sub : Subscriber
  receives : sub.receives = true
  outcome : PostOutcome
  returns : (deliver outcome).isSome = true
  draw : Draw

def RetryRound.start (r : RetryRound) (a : DeliveryAttempt) : Time := a.nextAttemptAt + r.wait

/-- The time when `deliver` has returned. SOURCE: app/delivery/worker.py:126 -/
def RetryRound.finish (r : RetryRound) (a : DeliveryAttempt) : Time := r.start a + r.latency

def RetryRound.batch (r : RetryRound) (a : DeliveryAttempt) : List (Snapshot × RowEnv) :=
  [(⟨a, r.event⟩, ⟨some r.sub, r.outcome, r.finish a, r.draw⟩)]

structure RetryState where
  attempts : List DeliveryAttempt
  posts : List Post

/-- The row becomes due. SOURCE: app/delivery/worker.py:67-70 -/
def due (a : DeliveryAttempt) : Bool := a.status = .pending || a.status = .failed

/-- `_process_batch` for the row `id` alone, some time after it is due. A row that is neither
`pending` nor `failed` is not claimed. SOURCE: app/delivery/worker.py:58-98 -/
def retryRound (cfg : Settings) (id : Uuid) (r : RetryRound) (s : RetryState) : RetryState :=
  match (lookup DeliveryAttempt.id id s.attempts).filter due with
  | some a =>
    ⟨(processBatch cfg (r.start a) (r.batch a) s.attempts).1,
      s.posts ++ batchPosts cfg (r.batch a) (markInFlight [a.id] (r.start a) s.attempts)⟩
  | none => s

/-- The first `n` rounds. SOURCE: app/delivery/worker.py:188-201 -/
def retryRun (cfg : Settings) (id : Uuid) (rounds : ℕ → RetryRound) (s : RetryState) :
    ℕ → RetryState
  | 0 => s
  | n + 1 => retryRound cfg id (rounds n) (retryRun cfg id rounds s n)

end EventPipeline.Program

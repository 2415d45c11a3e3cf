import Mathlib.Logic.Function.Basic
import EventPipeline.Model.Rows

/-!
# The state of the delivery side

The table `delivery_attempts`, the workers and the `retry_delivery` calls in progress. As on
the intake side, a worker or a call is a program counter with its local variables.

The field `held` of a worker and the list `posts` are history and are read by no step.
-/

set_option autoImplicit false

namespace EventPipeline.Model

/-- Numbers the delivery worker processes. -/
abbrev WorkerId := ℕ

/-- Numbers the API calls. -/
abbrev RequestId := ℕ

/-- A claimed row with the event row loaded next to it. The worker does not use the
subscriber that the claim loads as well. SOURCE: app/delivery/worker.py:72-75 -/
structure Snapshot where
  attempt : DeliveryAttempt
  event : IdempotencyKey

/-- What `deliver` returns. SOURCE: app/delivery/sender.py:34-38 -/
structure DeliveryResult where
  success : Bool
  statusCode : Option ℕ
  error : Option PyStr

/-- A call of `deliver`, with the attempt row it is for. SOURCE: app/delivery/sender.py:41-47 -/
structure Post where
  deliveryId : Uuid
  endpoint : PyStr
  secret : PyStr
  eventType : PyStr
  payload : Json
  messageId : MessageId
  subscriberId : Uuid

/-- Where the loop of a worker is. SOURCE: app/delivery/worker.py:58-174 -/
inductive WorkerPhase where
  | idle
  /-- the rows are locked by SELECT ... FOR UPDATE, the UPDATE is not committed -/
  | claiming (now : Time) (picked : List Snapshot)
  /-- between two rows of the batch -/
  | delivering (todo : List Snapshot)
  /-- the subscriber is fetched again -/
  | fetched (a : Snapshot) (sub : Option Subscriber) (todo : List Snapshot)
  | posting (a : Snapshot) (sub : Subscriber) (todo : List Snapshot)
  /-- `deliver` has returned at time `at'`, the final UPDATE is not committed -/
  | posted (a : Snapshot) (result : DeliveryResult) (at' : Time) (todo : List Snapshot)

/-- The rows of the batch that the worker still works on. -/
def WorkerPhase.batch : WorkerPhase → List Snapshot
  | .idle => []
  | .claiming _ picked => picked
  | .delivering todo => todo
  | .fetched a _ todo | .posting a _ todo | .posted a _ _ todo => a :: todo

instance WorkerPhase.decidableIdle : (ph : WorkerPhase) → Decidable (ph = .idle)
  | .idle => isTrue rfl
  | .claiming _ _ | .delivering _ | .fetched _ _ _ | .posting _ _ _ | .posted _ _ _ _ =>
    isFalse WorkerPhase.noConfusion

/-- A worker process. It holds a row from the commit of the claim to the commit of the
row's final update or to the death of the process. -/
structure Worker where
  phase : WorkerPhase
  held : List Uuid

/-- One `retry_delivery` call. SOURCE: app/api/deliveries.py:50-71 -/
inductive Retry where
  | idle
  /-- the row is loaded, the UPDATE is not committed -/
  | loaded (attempt : DeliveryAttempt)

structure Delivery where
  attempts : List DeliveryAttempt
  /-- the rows locked by the open transaction of a claim -/
  rowLocks : List (WorkerId × Uuid)
  workers : WorkerId → Worker
  retries : RequestId → Retry
  posts : List Post

def Delivery.init : Delivery where
  attempts := []
  rowLocks := []
  workers _ := ⟨.idle, []⟩
  retries _ := .idle
  posts := []

namespace Delivery

def locked (d : Delivery) : List Uuid := d.rowLocks.map Prod.snd

def setWorker (d : Delivery) (w : WorkerId) (x : Worker) : Delivery :=
  { d with workers := Function.update d.workers w x }

def setPhase (d : Delivery) (w : WorkerId) (ph : WorkerPhase) : Delivery :=
  d.setWorker w { d.workers w with phase := ph }

def setRetry (d : Delivery) (r : RequestId) (x : Retry) : Delivery :=
  { d with retries := Function.update d.retries r x }

/-- The transaction of worker `w` ends and frees its locks. -/
def unlock (d : Delivery) (w : WorkerId) : Delivery :=
  { d with rowLocks := d.rowLocks.filter fun p => p.1 ≠ w }

def release (d : Delivery) (w : WorkerId) (id : Uuid) : Delivery :=
  d.setWorker w { d.workers w with held := (d.workers w).held.filter fun i => i ≠ id }

/-! ### What the operations leave alone -/

section
variable (d : Delivery) (w : WorkerId) (x : Worker) (ph : WorkerPhase) (r : RequestId) (y : Retry)
  (id : Uuid)

@[simp] theorem setWorker_workers : (d.setWorker w x).workers = Function.update d.workers w x := rfl
@[simp] theorem setWorker_attempts : (d.setWorker w x).attempts = d.attempts := rfl
@[simp] theorem setWorker_rowLocks : (d.setWorker w x).rowLocks = d.rowLocks := rfl
@[simp] theorem setWorker_locked : (d.setWorker w x).locked = d.locked := rfl
@[simp] theorem setWorker_retries : (d.setWorker w x).retries = d.retries := rfl
@[simp] theorem setWorker_posts : (d.setWorker w x).posts = d.posts := rfl

@[simp] theorem setPhase_eq : d.setPhase w ph = d.setWorker w { d.workers w with phase := ph } := rfl

@[simp] theorem setRetry_workers : (d.setRetry r y).workers = d.workers := rfl
@[simp] theorem setRetry_attempts : (d.setRetry r y).attempts = d.attempts := rfl
@[simp] theorem setRetry_rowLocks : (d.setRetry r y).rowLocks = d.rowLocks := rfl
@[simp] theorem setRetry_locked : (d.setRetry r y).locked = d.locked := rfl
@[simp] theorem setRetry_retries : (d.setRetry r y).retries = Function.update d.retries r y := rfl
@[simp] theorem setRetry_posts : (d.setRetry r y).posts = d.posts := rfl

@[simp] theorem unlock_workers : (d.unlock w).workers = d.workers := rfl
@[simp] theorem unlock_attempts : (d.unlock w).attempts = d.attempts := rfl
@[simp] theorem unlock_retries : (d.unlock w).retries = d.retries := rfl
@[simp] theorem unlock_posts : (d.unlock w).posts = d.posts := rfl

/-- A worker that releases a row and enters a phase. -/
theorem setPhase_release : (d.setPhase w ph).release w id =
    d.setWorker w ⟨ph, (d.workers w).held.filter fun i => i ≠ id⟩ := by
  simp [release, setWorker]

end

end Delivery

end EventPipeline.Model

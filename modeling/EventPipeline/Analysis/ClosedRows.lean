import EventPipeline.Computation.History
import EventPipeline.Analysis.ClaimLocks

/-!
# Rows that are written without a POST

A worker closes the row of a subscriber that does not receive, and a stale reset sets rows back.
The text in `last_error` does not tell such a row from one whose endpoint has answered with the
same text; the run does. Each row that a worker closes is one for which the last subscriber that
this worker has fetched is the subscriber of the row, and did not receive.
-/

set_option autoImplicit false

namespace EventPipeline.Analysis

open EventPipeline.Model EventPipeline.Program EventPipeline.Interface EventPipeline.Computation

/-! ## What the workers do with the subscribers of their rows -/

/-- What a re-fetch reads from the table `subscribers`. -/
structure SubscriberFetch where
  row : Uuid
  subscriber : Uuid
  receives : Bool

inductive RowCheck where
  /-- a worker fetches the subscriber of a row -/
  | fetched (w : WorkerId) (found : SubscriberFetch)
  /-- a worker leaves this version of a row without a POST -/
  | closed (w : WorkerId) (row : DeliveryAttempt)

/-- SOURCE: app/delivery/worker.py:105-108 -/
def fetchCheck (s : World) (w : WorkerId) : WorkerPhase → List RowCheck
  | .delivering (x :: _) =>
    let sub := lookup Subscriber.id x.attempt.subscriberId s.registry.subscribers
    [.fetched w ⟨x.attempt.id, x.attempt.subscriberId, sub.any Subscriber.receives⟩]
  | _ => []

/-- SOURCE: app/delivery/worker.py:109-117 -/
def closeCheck (s : World) (w : WorkerId) : WorkerPhase → List RowCheck
  | .fetched x _ _ =>
    let attempts := closeInactive x.attempt s.now s.delivery.attempts
    ((lookup DeliveryAttempt.id x.attempt.id attempts).map (.closed w)).toList
  | _ => []

def rowCheck (s : World) : Action → List RowCheck
  | .worker w .fetch => fetchCheck s w (s.delivery.workers w).phase
  | .worker w .close => closeCheck s w (s.delivery.workers w).phase
  | _ => []

def rowChecks (cfg : Settings) (as : List Action) : List RowCheck :=
  history (step cfg) rowCheck World.init as

def RowCheck.fetchBy (w : WorkerId) : RowCheck → Option SubscriberFetch
  | .fetched w' found => if w' = w then some found else none
  | .closed _ _ => none

/-- The last subscriber that worker `w` has fetched. -/
def lastFetch (w : WorkerId) (log : List RowCheck) : Option SubscriberFetch :=
  (log.filterMap (RowCheck.fetchBy w)).getLast?

def RowCheck.closedRow : RowCheck → Option DeliveryAttempt
  | .fetched _ _ => none
  | .closed _ row => some row

def closedRows (log : List RowCheck) : List DeliveryAttempt := log.filterMap RowCheck.closedRow

/-- The row is as a worker has closed it, after this worker has fetched its subscriber and found
that it does not receive. SOURCE: app/delivery/worker.py:105-117 -/
def ClosedInactive (log : List RowCheck) (row : DeliveryAttempt) : Prop :=
  ∃ w before after, log = before ++ .closed w row :: after ∧
    lastFetch w before = some ⟨row.id, row.subscriberId, false⟩

/-- The rows as a stale reset leaves them. SOURCE: app/delivery/worker.py:36-55 -/
def resetRow (cfg : Settings) (s : World) : Action → List DeliveryAttempt
  | .worker _ (.resetStale t₀) =>
    resetStaleInFlight cfg t₀ (s.delivery.attempts.filter (staleInFlight cfg t₀))
  | _ => []

def resetRows (cfg : Settings) (as : List Action) : List DeliveryAttempt :=
  history (step cfg) (resetRow cfg) World.init as

section
variable {cfg : Settings} {s s' : World} {a : Action} {log log' : List RowCheck}
  {row : DeliveryAttempt} {w : WorkerId}

/-- The closed rows of two logs are those of both. -/
theorem closedRows_append : closedRows (log ++ log') = closedRows log ++ closedRows log' :=
  List.filterMap_append

/-- The fetches of other workers do not matter. -/
theorem lastFetch_append (h : log'.filterMap (RowCheck.fetchBy w) = []) :
    lastFetch w (log ++ log') = lastFetch w log := by
  rw [lastFetch, List.filterMap_append, h, List.append_nil, lastFetch]

/-- What has been logged stays logged. -/
theorem ClosedInactive.mono (h : ClosedInactive log row) : ClosedInactive (log ++ log') row := by
  obtain ⟨w, before, after, rfl, hlast⟩ := h
  exact ⟨w, before, after ++ log', by simp, hlast⟩

/-! ## The invariant -/

/-- SOURCE: app/delivery/worker.py:72-75,105-117 -/
structure CheckInv (s : World) (log : List RowCheck) : Prop where
  claimed : ∀ w, ∀ x ∈ (s.delivery.workers w).phase.batch,
    HasRow s.delivery.attempts x.attempt.id x.attempt.pair
  fetched : ∀ w x sub todo, (s.delivery.workers w).phase = .fetched x sub todo →
    lastFetch w log = some ⟨x.attempt.id, x.attempt.subscriberId, sub.any Subscriber.receives⟩
  closed : ∀ row ∈ closedRows log, ClosedInactive log row

/-- The fetches of one worker are not those of another one. -/
theorem fetchBy_fetchCheck {w' : WorkerId} (h : w' ≠ w) (ph : WorkerPhase) :
    (fetchCheck s w' ph).filterMap (RowCheck.fetchBy w) = [] := by
  unfold fetchCheck
  split
  · simp [RowCheck.fetchBy, h]
  · rfl

/-- A close is no fetch. -/
theorem fetchBy_closeCheck (w' : WorkerId) (ph : WorkerPhase) :
    (closeCheck s w' ph).filterMap (RowCheck.fetchBy w) = [] := by
  unfold closeCheck
  split
  · dsimp only
    cases lookup DeliveryAttempt.id _ _ <;> rfl
  · rfl

/-- What worker `w` has fetched is not changed by a step that leaves it there. -/
theorem fetchBy_rowCheck {x : Snapshot} {sub : Option Subscriber} {todo : List Snapshot}
    (hph : (s.delivery.workers w).phase = .fetched x sub todo) (a : Action) :
    (rowCheck s a).filterMap (RowCheck.fetchBy w) = [] := by
  cases a with
  | worker w' b =>
    cases b with
    | fetch =>
      by_cases hw : w' = w
      · subst hw
        rw [rowCheck, hph]
        rfl
      · exact fetchBy_fetchCheck hw _
    | close => exact fetchBy_closeCheck w' _
    | _ => rfl
  | _ => rfl

/-- A fetch closes no row. -/
theorem closedRows_fetchCheck (w : WorkerId) (ph : WorkerPhase) :
    closedRows (fetchCheck s w ph) = [] := by
  unfold fetchCheck
  split <;> rfl

/-- A worker closes the row of the batch that it works on. -/
theorem lookup_closeInactive {x : DeliveryAttempt} (now : Time) {t : List DeliveryAttempt}
    (hn : (t.map DeliveryAttempt.id).Nodup) (hrow : row ∈ t) (hid : row.id = x.id) :
    lookup DeliveryAttempt.id x.id (closeInactive x now t) =
      some { row with status := .dead, lastError := some inactiveError, updatedAt := now } := by
  refine (lookup_updateWhere ?_ t).trans ?_
  · exact fun _ _ => rfl
  · rw [← hid, lookup_of_mem hn hrow, Option.map_some, if_pos rfl]

/-- A row that is closed is the row of the subscriber that was fetched last.
SOURCE: app/delivery/worker.py:105-117 -/
theorem closed_of_step (hreach : Reachable (Program.step cfg) World.init s) (hinv : CheckInv s log)
    (hs : Program.step cfg s a = some s') (hrow : row ∈ closedRows (rowCheck s a)) :
    ClosedInactive (log ++ rowCheck s a) row := by
  cases worldStep_of_eq_some hs with
  | @worker w b d h =>
    cases h with
    | @close x sub todo hph hsub _ =>
      obtain ⟨r, hr, hid, hpair⟩ := hinv.claimed w x (by rw [hph]; exact List.mem_cons_self)
      have hlookup := lookup_closeInactive s.now
        (lockInv_of_reachable hreach).ids_nodup hr hid
      simp only [rowCheck, hph, closeCheck, hlookup, Option.map_some, Option.toList_some,
        closedRows, List.filterMap_cons, RowCheck.closedRow, List.filterMap_nil,
        List.mem_singleton] at hrow
      subst hrow
      refine ⟨w, log, [], by simp [rowCheck, hph, closeCheck, hlookup], ?_⟩
      have hsubscriber : r.subscriberId = x.attempt.subscriberId := congrArg Prod.snd hpair
      rw [hinv.fetched w x sub todo hph, hsub, hid, hsubscriber]
    | fetch _ =>
      rw [rowCheck, closedRows_fetchCheck] at hrow
      exact absurd hrow List.not_mem_nil
    | _ => exact absurd hrow List.not_mem_nil
  | _ => exact absurd hrow List.not_mem_nil

/-- A subscriber that a worker holds is the last one that it has fetched.
SOURCE: app/delivery/worker.py:105-108 -/
theorem lastFetch_of_step (hinv : CheckInv s log) (hs : Program.step cfg s a = some s')
    {x : Snapshot} {sub : Option Subscriber} {todo : List Snapshot}
    (hph : (s'.delivery.workers w).phase = .fetched x sub todo) :
    lastFetch w (log ++ rowCheck s a) =
      some ⟨x.attempt.id, x.attempt.subscriberId, sub.any Subscriber.receives⟩ := by
  have hold : (s.delivery.workers w).phase = .fetched x sub todo →
      lastFetch w (log ++ rowCheck s a) =
        some ⟨x.attempt.id, x.attempt.subscriberId, sub.any Subscriber.receives⟩ := by
    intro hph
    rw [lastFetch_append (fetchBy_rowCheck hph a)]
    exact hinv.fetched w x sub todo hph
  obtain hkeep | ⟨b, d, rfl, rfl, h⟩ := worker_of_step hs w
  · exact hold (hkeep ▸ hph)
  · cases h with
    | fetch hdelivering =>
      simp only [Delivery.setPhase_eq, Delivery.setWorker_workers, Function.update_self] at hph
      cases hph
      simp [rowCheck, hdelivering, fetchCheck, lastFetch, RowCheck.fetchBy]
    | resetStale _ => exact hold hph
    | _ =>
      simp only [Delivery.setPhase_eq, Delivery.setWorker_workers, Function.update_self] at hph
      cases hph

/-- One step keeps what the log says of the fetches and the closed rows.
SOURCE: app/delivery/worker.py:72-75,105-117 -/
theorem checkInv_step (hreach : Reachable (Program.step cfg) World.init s) (hinv : CheckInv s log)
    (hs : Program.step cfg s a = some s') : CheckInv s' (log ++ rowCheck s a) := by
  refine ⟨fun w x hx => ?_, fun w x sub todo hph => lastFetch_of_step hinv hs hph,
    fun row hrow => ?_⟩
  · have hrow : HasRow s.delivery.attempts x.attempt.id x.attempt.pair := by
      obtain hx | ⟨_, _, _, _, _, hsnap, _⟩ := batch_of_step hs hx
      · exact hinv.claimed w x hx
      · exact ⟨x.attempt, (of_snapshotOf hsnap).1, rfl, rfl⟩
    exact hrow.step hs
  · rw [closedRows_append] at hrow
    obtain hold | hnew := List.mem_append.1 hrow
    · exact (hinv.closed row hold).mono
    · exact closed_of_step hreach hinv hs hnew

/-- What the log says of the fetches and the closed rows holds after every run. -/
theorem checkInv_of_run {as : List Action} (h : run (Program.step cfg) World.init as = some s) :
    CheckInv s (rowChecks cfg as) := by
  refine history_induct (I := CheckInv) ?_ (fun s log a s' => checkInv_step) h
  refine ⟨fun _ _ h => absurd h List.not_mem_nil, ?_, fun _ h => absurd h List.not_mem_nil⟩
  intro w x sub todo hph
  cases hph

/-! ## The rows of the table -/

/-- A close leaves the row that is logged. SOURCE: app/delivery/worker.py:109-117 -/
theorem mem_closedRows_of_close (hreach : Reachable (Program.step cfg) World.init s) {x : Snapshot}
    {sub : Option Subscriber} {todo : List Snapshot} (hrow : row ∈ s.delivery.attempts)
    (hph : (s.delivery.workers w).phase = .fetched x sub todo) (hid : row.id = x.attempt.id) :
    { row with status := .dead, lastError := some inactiveError, updatedAt := s.now } ∈
      closedRows (rowCheck s (.worker w .close)) := by
  have hlookup := lookup_closeInactive s.now
    (lockInv_of_reachable hreach).ids_nodup hrow hid
  simp [rowCheck, hph, closeCheck, hlookup, closedRows, RowCheck.closedRow]

/-- A stale reset leaves the row that is logged. SOURCE: app/delivery/worker.py:36-55 -/
theorem mem_resetRow {t₀ : Time} (hrow : row ∈ s.delivery.attempts)
    (hst : staleInFlight cfg t₀ row = true) :
    { row with
      status := .failed, lastError := some resetError, nextAttemptAt := t₀, updatedAt := t₀ } ∈
      resetRow cfg s (.worker w (.resetStale t₀)) := by
  refine List.mem_map.2 ⟨row, List.mem_filter.2 ⟨hrow, hst⟩, ?_⟩
  rw [if_pos hst]

end

end EventPipeline.Analysis

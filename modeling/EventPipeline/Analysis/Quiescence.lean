import EventPipeline.Computation.Draining
import EventPipeline.Analysis.ForeignKeys
import EventPipeline.Analysis.SingleWorker
import EventPipeline.Analysis.StorableRequests

/-!
# The pipeline drains

An INSERT waits for another transaction that inserts the same key, and an UPDATE waits for a
claim that has the row locked. Both waits are for a transaction that itself waits for nobody,
so nothing is ever stuck: as long as some process has work in progress, some step of some
process is enabled. The work in progress is finite and no step but a start adds to it. So
when nothing new is started the pipeline comes to rest, whatever the order of the steps, the
answers of the provider and of the endpoints, and the failures.
-/

set_option autoImplicit false

namespace EventPipeline.Analysis

open EventPipeline.Model EventPipeline.Program EventPipeline.Interface EventPipeline.Computation

/-! ## The work in progress -/

/-- What may have work in progress: a `handle_message` call, a reconciler cycle, a delivery
worker, a `retry_delivery` call, a PATCH or a DELETE. -/
inductive Process where
  | call (t : Tag)
  | cycle (p : ConsumerId)
  | worker (w : WorkerId)
  | retry (r : RequestId)
  | request (r : RequestId)
  deriving DecidableEq

/-- The most steps that a call still takes. SOURCE: app/consumer/rabbitmq.py:106-197 -/
def callSteps : Handler → ℕ
  | .idle => 0
  | .acking => 1
  | .parsed _ => 7
  | .inserted _ _ => 6
  | .selected _ _ _ _ => 5
  | .committed _ => 4
  | .enriching _ => 3
  | .storing _ _ _ | .recording _ _ => 2
  | .storeLoaded _ _ _ _ | .recordLoaded _ _ _ => 1

/-- One step for each row, and the commit. SOURCE: app/consumer/rabbitmq.py:219-261 -/
def cycleSteps : Model.Cycle → ℕ
  | .idle => 0
  | .running todo _ => todo.length + 1

/-- Five steps for each row, at most. SOURCE: app/delivery/worker.py:83-98,101-174 -/
def batchSteps : WorkerPhase → ℕ
  | .idle => 0
  | .claiming _ picked => 5 * picked.length + 2
  | .delivering todo => 5 * todo.length + 1
  | .fetched _ _ todo => 5 * todo.length + 5
  | .posting _ _ todo => 5 * todo.length + 4
  | .posted _ _ _ todo => 5 * todo.length + 3

def retrySteps : Retry → ℕ
  | .idle => 0
  | .loaded _ => 1

def requestSteps : SubscriberRequest → ℕ
  | .idle => 0
  | .patching _ _ | .deleting _ => 1

/-- The work that a process has left. -/
def workLeft (s : World) : Process → ℕ
  | .call t => callSteps (s.intake.handlers t)
  | .cycle p => cycleSteps (s.intake.reconcilers p)
  | .worker w => batchSteps (s.delivery.workers w).phase
  | .retry r => retrySteps (s.delivery.retries r)
  | .request r => requestSteps (s.registry.requests r)

/-! ## Steps that start nothing -/

/-- The process that an action is a step of. -/
def processOf : Action → Option Process
  | .tick _ | .publish _ _ => none
  | .handler t _ => some (.call t)
  | .reconciler p _ => some (.cycle p)
  | .worker w _ => some (.worker w)
  | .retry r _ => some (.retry r)
  | .subscriber r _ => some (.request r)

/-- The action starts a call, a cycle, a batch or a request, or it is no step of one. A worker
process that dies is started again. -/
def startsWork : Action → Bool
  | .tick _ | .publish _ _ | .handler _ (.start _) | .reconciler _ (.select _ _) => true
  | .worker _ (.claim _ _) | .worker _ (.resetStale _) | .worker _ .crash => true
  | .retry _ (.select _) => true
  | .subscriber _ (.create _ _ _) | .subscriber _ (.patch _ _) | .subscriber _ (.delete _) => true
  | _ => false

/-- A call of the database, the provider, the exchange or the endpoint raises, or a process
dies. -/
def isFailure : Action → Bool
  | .handler _ (.commitLost _) | .handler _ .dbError | .handler _ .crash => true
  | .handler _ (.enrich (.result _)) => false
  | .handler _ (.enrich _) => true
  | .reconciler _ (.publish (.error _)) | .reconciler _ .fail | .reconciler _ .crash => true
  | .worker _ (.postEnds .raised) | .worker _ .dbError => true
  | .retry _ .abort | .subscriber _ .abort => true
  | _ => false

section
variable {cfg : Settings} {s s' : World} {a : Action}

/-! ## Every step is about one process -/

/-- A retry request moves by its own steps only. -/
theorem retries_of_step (hs : step cfg s a = some s') {r : RequestId}
    (hr : processOf a ≠ some (.retry r)) : s'.delivery.retries r = s.delivery.retries r := by
  cases worldStep_of_eq_some hs with
  | worker h => cases h <;> rfl
  | @retry r' _ _ h =>
    have hne : r ≠ r' := fun heq => hr (heq ▸ rfl)
    cases h with
    | refuse => rfl
    | _ => exact Function.update_of_ne hne _ _
  | _ => rfl

/-- A subscriber request moves by its own steps only. -/
theorem requests_of_step (hs : step cfg s a = some s') {r : RequestId}
    (hr : processOf a ≠ some (.request r)) : s'.registry.requests r = s.registry.requests r := by
  have hne : ∀ r' b, a = .subscriber r' b → r ≠ r' := by
    rintro r' b rfl rfl
    exact hr rfl
  have hkeep : ∀ g, RegistryStep s a g → g.requests r = s.registry.requests r := by
    intro g h
    cases h with
    | same => rfl
    | create _ => rfl
    | _ => exact Function.update_of_ne (hne _ _ rfl) _ _
  exact hkeep _ (registryStep_of_step hs)

/-- A step leaves the work of the other processes as it is. -/
theorem workLeft_of_step (hs : step cfg s a = some s') {p : Process} (hp : processOf a ≠ some p) :
    workLeft s' p = workLeft s p := by
  cases p with
  | call t =>
    have hh : s'.intake.handlers t = s.intake.handlers t := by
      cases callStep_of_step hs t with
      | still _ hh => exact hh
      | published _ _ hh => exact hh
      | reEnqueued _ _ _ hh => exact hh
      | moved _ => exact absurd rfl hp
    simp only [workLeft, hh]
  | cycle p =>
    obtain hkeep | ⟨_, _, rfl, _, _⟩ := reconciler_of_step hs p
    · simp only [workLeft, hkeep]
    · exact absurd rfl hp
  | worker w =>
    obtain hkeep | ⟨_, _, rfl, _, _⟩ := worker_of_step hs w
    · simp only [workLeft, hkeep]
    · exact absurd rfl hp
  | retry r => simp only [workLeft, retries_of_step hs hp]
  | request r => simp only [workLeft, requests_of_step hs hp]

/-- Each step moves one process, and the work left to the others stays. -/
theorem moves_process (cfg : Settings) : Moves (step cfg) workLeft := by
  intro s a s' hs
  cases hp : processOf a with
  | none => exact ⟨.call 0, fun q _ => workLeft_of_step hs (by rw [hp]; nofun)⟩
  | some p =>
    refine ⟨p, fun q hq => workLeft_of_step hs fun heq => hq ?_⟩
    exact Option.some.inj (heq.symm.trans hp)

end

/-! ## Every other step than a start uses work up -/

/-- A call that is busy has a step left. SOURCE: app/consumer/rabbitmq.py:106-197 -/
theorem callSteps_pos {h : Handler} (hne : h ≠ .idle) : 0 < callSteps h := by
  cases h <;> first | exact absurd rfl hne | exact Nat.succ_pos _

section
variable {cfg : Settings} {now : Time} {subscribers : List Subscriber}

/-- SOURCE: app/consumer/rabbitmq.py:106-197 -/
theorem callSteps_lt {s s' : Intake} {attempts attempts' : List DeliveryAttempt} {t : Tag}
    {a : HandlerAction} (h : handleMessage cfg now subscribers s attempts t a = some (s', attempts'))
    (ha : startsWork (.handler t a) = false) :
    callSteps (s'.handlers t) < callSteps (s.handlers t) := by
  cases handlerStep_of_eq_some h with
  | discard => cases ha
  | raised => cases ha
  | event => cases ha
  | commit hh hc =>
    obtain ⟨_, _, rfl⟩ := commitEvent_eq_some hc
    simp [hh, callSteps]
  | commitLost hh hc =>
    obtain ⟨_, _, rfl⟩ := commitEvent_eq_some hc
    simp [raiseFrom, hh, callSteps]
  | dbError hne => simpa [raiseFrom, callSteps] using callSteps_pos hne
  | loadNone hh => simpa [callSteps] using callSteps_pos hh.1
  | crash =>
    simp only [handleMessage] at h
    split at h
    · cases h
    · simpa [crashHandler, callSteps] using callSteps_pos ‹_›
  | insertRaised hh => simp [raiseFrom, hh, callSteps]
  | duplicate hh => simp [hh, callSteps]
  | insert hh => simp [hh, callSteps]
  | select hh => simp [hh, callSteps]
  | ackOnly hh => simp [hh, callSteps]
  | ackEarly hh => simp [hh, callSteps]
  | enriched hh => simp [hh, callSteps]
  | fatal hh => simp [hh, callSteps]
  | notEnriched hh => simp [hh, callSteps]
  | loadStore hh => simp [hh, callSteps]
  | loadRecord hh => simp [hh, callSteps]
  | store hh => simp [hh, callSteps]
  | record hh => simp [hh, callSteps]

/-- SOURCE: app/consumer/rabbitmq.py:205-265 -/
theorem cycleSteps_lt {s s' : Intake} {p : ConsumerId} {a : ReconcilerAction}
    (h : ReconcilerStep cfg now s p a s') (ha : startsWork (.reconciler p a) = false) :
    cycleSteps (s'.reconcilers p) < cycleSteps (s.reconcilers p) := by
  cases h with
  | select => cases ha
  | abandon hc => simp [hc, cycleSteps]
  | accepted hc => simp [hc, cycleSteps]
  | timeout hc => simp [hc, cycleSteps]
  | error hc => simp [hc, cycleSteps]
  | errorAccepted hc => simp [hc, cycleSteps]
  | commit hc => simp [hc, cycleSteps]
  | stop hc => simp [hc, cycleSteps]

/-- A worker that is busy has a step left. SOURCE: app/delivery/worker.py:58-174 -/
theorem batchSteps_pos {ph : WorkerPhase} (hne : ph ≠ .idle) : 0 < batchSteps ph := by
  cases ph <;> first | exact absurd rfl hne | exact Nat.succ_pos _

/-- SOURCE: app/delivery/worker.py:58-174 -/
theorem batchSteps_lt {keys : List IdempotencyKey} {d d' : Delivery} {w : WorkerId}
    {a : WorkerAction} (h : worker cfg now subscribers keys d w a = some d')
    (ha : startsWork (.worker w a) = false) :
    batchSteps (d'.workers w).phase < batchSteps (d.workers w).phase := by
  cases workerStep_of_eq_some h with
  | claim => cases ha
  | resetStale => cases ha
  | crash => cases ha
  | dbError =>
    have hne : (d.workers w).phase ≠ .idle := by
      intro hph
      simp [worker, hph] at h
    simpa [batchSteps] using batchSteps_pos hne
  | claimCommit hph => simp [hph, batchSteps]
  | fetch hph => simp [hph, batchSteps]; omega
  | close hph => simp [hph, batchSteps]
  | post hph => simp [hph, batchSteps]
  | returned hph => simp [hph, batchSteps]
  | escaped hph => simp [hph, batchSteps]
  | writeBack hph => simp [hph, batchSteps]
  | writeBackRaised hph => simp [hph, batchSteps]
  | finish hph => simp [hph, batchSteps]

/-- A step of a retry request brings it nearer to its end. SOURCE: app/api/deliveries.py:50-71 -/
theorem retrySteps_lt {d d' : Delivery} {r : RequestId} {a : RetryAction}
    (h : retryDelivery now d r a = some d') (ha : startsWork (.retry r a) = false) :
    retrySteps (d'.retries r) < retrySteps (d.retries r) := by
  cases a with
  | select id => cases ha
  | commit =>
    cases retryStep_of_eq_some h with
    | commit hr _ => simp [hr, retrySteps]
  | abort =>
    simp only [retryDelivery] at h
    split at h
    · rename_i row hr
      cases h
      simp [hr, retrySteps]
    · cases h

/-- A step of a subscriber request brings it nearer to its end.
SOURCE: app/api/subscribers.py:78-127 -/
theorem requestSteps_lt {g g' : Registry} {r : RequestId} {a : SubscriberAction}
    (h : subscriber now g r a = some g') (ha : startsWork (.subscriber r a) = false) :
    requestSteps (g'.requests r) < requestSteps (g.requests r) := by
  have hidle : ∀ g₁ : Registry, requestSteps ((g₁.setRequest r .idle).requests r) = 0 := by
    intro g₁
    simp [Registry.setRequest, requestSteps]
  cases a with
  | create id endpoint secret => cases ha
  | patch id body => cases ha
  | delete id => cases ha
  | commit =>
    simp only [subscriber] at h
    split at h <;> cases h <;> rename_i hr <;> rw [hidle, hr] <;> exact Nat.zero_lt_one
  | abort =>
    simp only [subscriber] at h
    cases hr : g.requests r with
    | idle => simp [hr] at h
    | _ =>
      rw [hr] at h
      cases h
      rw [hidle]
      exact Nat.zero_lt_one

/-- Every other step than a start uses up a part of the work of its process. -/
theorem usesUp (cfg : Settings) :
    UsesUp (step cfg) (fun a => startsWork a = false) workLeft := by
  intro s a s' ha hs
  have hothers : ∀ p, processOf a = some p → KeepsOthers workLeft s s' p :=
    fun p hp q hq => workLeft_of_step hs fun heq => hq (Option.some.inj (heq.symm.trans hp))
  cases a with
  | tick d => cases ha
  | publish t body => cases ha
  | handler t a =>
    obtain ⟨⟨i, attempts⟩, hi, rfl⟩ := Option.map_eq_some_iff.1 hs
    exact ⟨.call t, callSteps_lt hi ha, hothers _ rfl⟩
  | reconciler p a =>
    obtain ⟨i, hi, rfl⟩ := Option.map_eq_some_iff.1 hs
    exact ⟨.cycle p, cycleSteps_lt (reconcilerStep_of_eq_some hi) ha, hothers _ rfl⟩
  | worker w a =>
    obtain ⟨d, hd, rfl⟩ := Option.map_eq_some_iff.1 hs
    exact ⟨.worker w, batchSteps_lt hd ha, hothers _ rfl⟩
  | retry r a =>
    obtain ⟨d, hd, rfl⟩ := Option.map_eq_some_iff.1 hs
    exact ⟨.retry r, retrySteps_lt hd ha, hothers _ rfl⟩
  | subscriber r a =>
    obtain ⟨g, hg, rfl⟩ := Option.map_eq_some_iff.1 hs
    exact ⟨.request r, requestSteps_lt hg ha, hothers _ rfl⟩

end

/-! ## A process with work left is never stuck

A wait is for an open transaction, and the process that has it open can go on. -/

/-- Some step that neither starts anything nor fails is enabled. -/
def CanGoOn (cfg : Settings) (s : World) : Prop :=
  ∃ a, (startsWork a = false ∧ isFailure a = false) ∧ (step cfg s a).isSome = true

section
variable {cfg : Settings} {s : World}

/-- The transaction of a call goes through for some identifiers, also when subscribers have
been added or deleted since its SELECT. SOURCE: app/consumer/rabbitmq.py:74-93,138-144 -/
theorem exists_commit (hreach : Reachable (step cfg) World.init s) {t : Tag} {ev : NewEvent}
    {receivedAt readAt : Time} {seen : List Subscriber}
    (hh : s.intake.handlers t = .selected ev receivedAt seen readAt) :
    ∃ ids, (step cfg s (.handler t (.commit ids))).isSome = true := by
  have hinv := intakeInv_of_reachable hreach
  obtain ⟨hvalid, hrefines⟩ := refinesInbox_of_reachable hreach
  have hread := (referenceInv_of_reachable hreach).selected t ev receivedAt seen readAt hh
  have hseen : (recipients seen).Nodup := ((List.filter_sublist).map Subscriber.id).nodup hread.nodup
  have hnew : ev.messageId ∉ s.intake.ids := hinv.open_new t _ (by rw [hh]; rfl)
  obtain ⟨ids, hlen, hnodup, hfresh⟩ := exists_new_ids
    (s.delivery.attempts.map DeliveryAttempt.id) (seen.filter Subscriber.receives).length
  have hids : (s.delivery.attempts.map DeliveryAttempt.id ++ ids).Nodup :=
    (lockInv_of_reachable hreach).ids_nodup.append hnodup fun id hused hid => hfresh id hid hused
  have hpairs : ∀ r, (ev.messageId, r) ∉ s.delivery.attempts.map DeliveryAttempt.pair := by
    intro r hmem
    rw [← hrefines.entries] at hmem
    obtain ⟨rs, hmem, _⟩ := Inbox.mem_entries.1 hmem
    exact hnew (hrefines.keys ▸ List.mem_map_of_mem hmem)
  refine ⟨ids, ?_⟩
  simp only [step, handleMessage, hh, commitEvent, if_pos hlen, Option.isSome_map]
  rw [insertAttempts_of_new hlen hids (hrefines.entries ▸ hvalid.entries_nodup) hseen hpairs]
  rfl

/-- A call with an open INSERT waits for nobody. SOURCE: app/consumer/rabbitmq.py:130-144 -/
theorem canGoOn_of_inserting (hreach : Reachable (step cfg) World.init s) {t : Tag}
    {m : MessageId} (h : (s.intake.handlers t).inserting = some m) : CanGoOn cfg s := by
  cases hh : s.intake.handlers t with
  | inserted ev receivedAt =>
    exact ⟨.handler t .selectSubscribers, ⟨rfl, rfl⟩, by simp [step, handleMessage, hh]⟩
  | selected ev receivedAt seen readAt =>
    obtain ⟨ids, hids⟩ := exists_commit hreach hh
    exact ⟨.handler t (.commit ids), ⟨rfl, rfl⟩, hids⟩
  | _ =>
    rw [hh] at h
    cases h

/-- A claim that has rows locked waits for nobody. SOURCE: app/delivery/worker.py:63-89 -/
theorem exists_claimCommit (hreach : Reachable (step cfg) World.init s) {id : Uuid}
    (h : id ∈ s.delivery.locked) : ∃ w, (step cfg s (.worker w .claimCommit)).isSome = true := by
  obtain ⟨w, hlock⟩ := mem_locked.1 h
  obtain ⟨t₀, picked, hph, _⟩ := ((lockInv_of_reachable hreach).lock_iff w id).1 hlock
  exact ⟨w, by simp [step, worker, hph]⟩

/-- Where a row is locked, the worker that holds the lock can go on.
SOURCE: app/delivery/worker.py:84-91 -/
theorem canGoOn_of_locked (hreach : Reachable (step cfg) World.init s) {id : Uuid}
    (h : id ∈ s.delivery.locked) : CanGoOn cfg s := by
  obtain ⟨w, hw⟩ := exists_claimCommit hreach h
  exact ⟨.worker w .claimCommit, ⟨rfl, rfl⟩, hw⟩

/-- SOURCE: app/consumer/rabbitmq.py:106-197 -/
theorem canGoOn_of_call (hreach : Reachable (step cfg) World.init s) {t : Tag}
    (h : s.intake.handlers t ≠ .idle) : CanGoOn cfg s := by
  cases hh : s.intake.handlers t with
  | idle => exact absurd hh h
  | acking => exact ⟨.handler t .ack, ⟨rfl, rfl⟩, by simp [step, handleMessage, hh]⟩
  | parsed ev =>
    by_cases hopen : ∃ new, insertValues ev = some new ∧
        new.messageId ∈ s.intake.openInserts.map Prod.snd
    · -- Another call inserts the same key: the wait is for that call.
      obtain ⟨new, _, hmem⟩ := hopen
      obtain ⟨⟨t', m⟩, hopen, hm⟩ := List.mem_map.1 hmem
      exact canGoOn_of_inserting hreach (((intakeInv_of_reachable hreach).open_iff t' m).1 hopen)
    · refine ⟨.handler t .insert, ⟨rfl, rfl⟩, ?_⟩
      simp only [step, handleMessage, hh, Option.isSome_map]
      split
      · rfl
      · rename_i new hv
        split
        · rfl
        · rw [if_neg fun hmem => hopen ⟨new, hv, hmem⟩]
          rfl
  | inserted ev receivedAt => exact canGoOn_of_inserting hreach (t := t) (by rw [hh]; rfl)
  | selected ev receivedAt seen readAt =>
    exact canGoOn_of_inserting hreach (t := t) (by rw [hh]; rfl)
  | committed ev => exact ⟨.handler t .ack, ⟨rfl, rfl⟩, by simp [step, handleMessage, hh]⟩
  | enriching ev =>
    exact ⟨.handler t (.enrich (.result [])), ⟨rfl, rfl⟩, by simp [step, handleMessage, hh]⟩
  | storing m enriched at' =>
    refine ⟨.handler t .load, ⟨rfl, rfl⟩, ?_⟩
    simp only [step, handleMessage, hh, Option.isSome_map]
    split <;> rfl
  | recording m error =>
    refine ⟨.handler t .load, ⟨rfl, rfl⟩, ?_⟩
    simp only [step, handleMessage, hh, Option.isSome_map]
    split <;> rfl
  | storeLoaded m enriched at' ik =>
    exact ⟨.handler t .write, ⟨rfl, rfl⟩, by simp [step, handleMessage, hh]⟩
  | recordLoaded m error ik =>
    exact ⟨.handler t .write, ⟨rfl, rfl⟩, by simp [step, handleMessage, hh]⟩

/-- SOURCE: app/consumer/rabbitmq.py:219-261 -/
theorem canGoOn_of_cycle {p : ConsumerId} (h : s.intake.reconcilers p ≠ .idle) :
    CanGoOn cfg s := by
  cases hc : s.intake.reconcilers p with
  | idle => exact absurd hc h
  | running todo dirty =>
    cases todo with
    | nil => exact ⟨.reconciler p .commit, ⟨rfl, rfl⟩, by simp [step, reconciler, hc]⟩
    | cons ik todo =>
      by_cases hcap : cfg.reconcilerMaxAttempts ≤ ik.reconcileCount
      · exact ⟨.reconciler p .abandon, ⟨rfl, rfl⟩, by simp [step, reconciler, hc, hcap]⟩
      · exact ⟨.reconciler p (.publish .timeout), ⟨rfl, rfl⟩,
          by simp [step, reconciler, hc, Nat.lt_of_not_le hcap]⟩

/-- A step of a batch in which nothing fails, whatever the endpoint answers. A backoff, if it is
computed, draws 0. -/
def Proceeds (b : WorkerAction) : Prop :=
  Succeeds b ∧ (∀ w, startsWork (.worker w b) = false ∧ isFailure (.worker w b) = false) ∧
    ∀ k, b = .writeBack k → k = 0

/-- A step without a backoff, in which nothing fails. -/
theorem proceeds_of_ne {b : WorkerAction} (hsucceeds : Succeeds b)
    (hb : ∀ w, startsWork (.worker w b) = false ∧ isFailure (.worker w b) = false)
    (hne : ∀ k, b ≠ .writeBack k) : Proceeds b :=
  ⟨hsucceeds, hb, fun k heq => absurd heq (hne k)⟩

/-- Where a batch is in progress, some batch can go on. SOURCE: app/delivery/worker.py:58-174 -/
theorem exists_batchStep (hreach : Reachable (step cfg) World.init s) {w : WorkerId}
    (h : (s.delivery.workers w).phase ≠ .idle) :
    ∃ w' b, Proceeds b ∧ (step cfg s (.worker w' b)).isSome = true := by
  have hlocked : ∀ id ∈ s.delivery.locked,
      ∃ w' b, Proceeds b ∧ (step cfg s (.worker w' b)).isSome = true := by
    intro id hl
    obtain ⟨w', hw'⟩ := exists_claimCommit hreach hl
    exact ⟨w', .claimCommit, proceeds_of_ne trivial (fun _ => ⟨rfl, rfl⟩) (by simp), hw'⟩
  cases hph : (s.delivery.workers w).phase with
  | idle => exact absurd hph h
  | claiming t₀ picked =>
    exact ⟨w, .claimCommit, proceeds_of_ne trivial (fun _ => ⟨rfl, rfl⟩) (by simp),
      by simp [step, worker, hph]⟩
  | delivering todo =>
    cases todo with
    | nil =>
      exact ⟨w, .finish, proceeds_of_ne trivial (fun _ => ⟨rfl, rfl⟩) (by simp),
        by simp [step, worker, hph]⟩
    | cons x todo =>
      exact ⟨w, .fetch, proceeds_of_ne trivial (fun _ => ⟨rfl, rfl⟩) (by simp),
        by simp [step, worker, hph]⟩
  | fetched x sub todo =>
    by_cases hl : x.attempt.id ∈ s.delivery.locked
    · exact hlocked _ hl
    · cases hr : sub.any Subscriber.receives with
      | false =>
        exact ⟨w, .close, proceeds_of_ne trivial (fun _ => ⟨rfl, rfl⟩) (by simp),
          by simp [step, worker, hph, hr, hl]⟩
      | true =>
        obtain ⟨y, rfl, hy⟩ := (Option.any_eq_true _ _).1 hr
        exact ⟨w, .post, proceeds_of_ne trivial (fun _ => ⟨rfl, rfl⟩) (by simp),
          by simp [step, worker, hph, hy]⟩
  | posting x sub todo =>
    exact ⟨w, .postEnds (.timeout []), proceeds_of_ne (by decide) (fun _ => ⟨rfl, rfl⟩) (by simp),
      by simp [step, worker, hph, deliver]⟩
  | posted x r at' todo =>
    by_cases hl : x.attempt.id ∈ s.delivery.locked
    · exact hlocked _ hl
    · have hdraw : ∀ k, (WorkerAction.writeBack 0) = .writeBack k → k = 0 := by
        rintro k ⟨⟩
        rfl
      refine ⟨w, .writeBack 0, ⟨trivial, fun _ => ⟨rfl, rfl⟩, hdraw⟩, ?_⟩
      simp only [step, worker, hph, if_neg hl, Option.isSome_map]
      split <;> rfl

/-- Where a worker is busy something can go on. -/
theorem canGoOn_of_batch (hreach : Reachable (step cfg) World.init s) {w : WorkerId}
    (h : (s.delivery.workers w).phase ≠ .idle) : CanGoOn cfg s := by
  obtain ⟨w', b, ⟨_, hb, _⟩, hsome⟩ := exists_batchStep hreach h
  exact ⟨.worker w' b, hb w', hsome⟩

/-- Where a retry request is busy something can go on, if only the holder of its row. -/
theorem canGoOn_of_retry (hreach : Reachable (step cfg) World.init s) {r : RequestId}
    (h : s.delivery.retries r ≠ .idle) : CanGoOn cfg s := by
  cases hr : s.delivery.retries r with
  | idle => exact absurd hr h
  | loaded row =>
    by_cases hl : row.id ∈ s.delivery.locked
    · exact canGoOn_of_locked hreach hl
    · exact ⟨.retry r .commit, ⟨rfl, rfl⟩, by simp [step, retryDelivery, hr, hl]⟩

/-- A subscriber request that is busy can go on. -/
theorem canGoOn_of_request {r : RequestId} (h : s.registry.requests r ≠ .idle) :
    CanGoOn cfg s := by
  refine ⟨.subscriber r .commit, ⟨rfl, rfl⟩, ?_⟩
  cases hr : s.registry.requests r with
  | idle => exact absurd hr h
  | _ => simp [step, subscriber, hr]

/-- Where any process is busy something can go on. -/
theorem canGoOn_of_busy (hreach : Reachable (step cfg) World.init s) {p : Process}
    (h : workLeft s p ≠ 0) : CanGoOn cfg s := by
  cases p with
  | call t => exact canGoOn_of_call hreach (t := t) fun heq => h (by rw [workLeft, heq]; rfl)
  | cycle p => exact canGoOn_of_cycle (p := p) fun heq => h (by rw [workLeft, heq]; rfl)
  | worker w => exact canGoOn_of_batch hreach (w := w) fun heq => h (by rw [workLeft, heq]; rfl)
  | retry r => exact canGoOn_of_retry hreach (r := r) fun heq => h (by rw [workLeft, heq]; rfl)
  | request r => exact canGoOn_of_request (r := r) fun heq => h (by rw [workLeft, heq]; rfl)

end

/-! ## The result -/

/-- No call, cycle, batch or request is in progress. -/
structure AtRest (s : World) : Prop where
  calls : ∀ t, s.intake.handlers t = .idle
  cycles : ∀ p, s.intake.reconcilers p = .idle
  batches : ∀ w, (s.delivery.workers w).phase = .idle
  retries : ∀ r, s.delivery.retries r = .idle
  requests : ∀ r, s.registry.requests r = .idle

/-- Without work left every process is at rest. -/
theorem atRest_of_workLeft {s : World} (h : ∀ p, workLeft s p = 0) : AtRest s := by
  refine ⟨fun t => ?_, fun p => ?_, fun w => ?_, fun r => ?_, fun r => ?_⟩
  · by_contra hne
    exact (callSteps_pos hne).ne' (h (.call t))
  · have hp := h (.cycle p)
    cases hc : s.intake.reconcilers p with
    | idle => rfl
    | running todo dirty => simp [workLeft, hc, cycleSteps] at hp
  · by_contra hne
    exact (batchSteps_pos hne).ne' (h (.worker w))
  · have hr := h (.retry r)
    cases hc : s.delivery.retries r with
    | idle => rfl
    | loaded row => simp [workLeft, hc, retrySteps] at hr
  · have hr := h (.request r)
    cases hc : s.registry.requests r with
    | idle => rfl
    | _ => simp [workLeft, hc, requestSteps] at hr

/-- From every reachable state there is a bound on the steps that the processes take before
they are at rest, if nothing new is started. The bound holds for every order of the steps and
for every outcome of the database calls, the provider, the exchange and the endpoints. No
process waits for ever: when the only steps left are failures, all are at rest.
SOURCE: app/consumer/rabbitmq.py:106-261, app/delivery/worker.py:58-174,
app/api/deliveries.py:50-71, app/api/subscribers.py:80-127 -/
theorem pipeline_drains (cfg : Settings) (s : World) (h : Reachable (step cfg) World.init s) :
    ∃ n, ∀ as s', run (step cfg) s as = some s' → (∀ a ∈ as, startsWork a = false) →
      as.length ≤ n ∧
      ((∀ a, startsWork a = false ∧ isFailure a = false → step cfg s' a = none) → AtRest s') := by
  have hinit : ∀ p, workLeft World.init p = 0 := by
    intro p
    cases p <;> rfl
  obtain ⟨n, hn⟩ := drains (moves_process cfg) hinit (usesUp cfg)
    (fun _ _ hreach hp => canGoOn_of_busy hreach hp) h
  refine ⟨n, fun as s' hrun hC => ?_⟩
  obtain ⟨hlen, hrest⟩ := hn as s' hrun hC
  exact ⟨hlen, fun hstuck => atRest_of_workLeft (hrest hstuck)⟩

/-- Two copies of one message; the INSERT of the second call waits for the first call. -/
def secondWaits : List Action :=
  [.publish 0 (eventBody (py "m") (py "e") (.obj [])),
    .publish 1 (eventBody (py "m") (py "e") (.obj [])),
    .handler 0 (.start ⟨0⟩), .handler 0 .insert, .handler 1 (.start ⟨0⟩)]

theorem secondWaits_enabled : (run (step .default) World.init secondWaits).isSome = true := by
  decide

/-- The waiting second call does not keep the system from draining.
SOURCE: app/consumer/rabbitmq.py:113-137 -/
theorem pipeline_drains_secondWaits :
    let s := (run (step .default) World.init secondWaits).get secondWaits_enabled
    step .default s (.handler 1 .insert) = none ∧
      ∃ n, ∀ as s', run (step .default) s as = some s' → (∀ a ∈ as, startsWork a = false) →
        as.length ≤ n ∧
        ((∀ a, startsWork a = false ∧ isFailure a = false → step .default s' a = none) →
          AtRest s') :=
  ⟨rfl, pipeline_drains .default _ (Reachable.of_run secondWaits_enabled)⟩

end EventPipeline.Analysis

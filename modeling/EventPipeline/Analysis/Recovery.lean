import EventPipeline.Analysis.ClaimLocks
import EventPipeline.Interface.BackoffDates
import EventPipeline.Interface.CallSteps

/-!
# No delivery gets stuck

Every time that a process has read from the clock lies in the past. So the times in a row are
bounded by the clock, and one stale reset that is late enough leaves every row that is not
finished claimable. Workers may crash at any step, and their rows stay within the bound.
-/

set_option autoImplicit false

namespace EventPipeline.Analysis

open EventPipeline.Model EventPipeline.Program EventPipeline.Interface EventPipeline.Computation

/-! ## The times that the processes carry -/

/-- The time that a call will write as `next_attempt_at`. SOURCE: app/consumer/rabbitmq.py:85-92 -/
def Handler.readAt : Handler → Option Time
  | .selected _ _ _ readAt => some readAt
  | _ => none

/-- The time that a worker will write with its next UPDATE.
SOURCE: app/delivery/worker.py:62,84-88,126-172 -/
def WorkerPhase.time : WorkerPhase → Option Time
  | .claiming t₀ _ => some t₀
  | .posted _ _ at' _ => some at'
  | _ => none

/-- The time that a worker carries was the clock's or earlier when the worker took it. -/
theorem workerTime_of_step {cfg : Settings} {s s' : World} {a : Action}
    (hs : step cfg s a = some s') {w : WorkerId} {t : Time}
    (ht : WorkerPhase.time (s'.delivery.workers w).phase = some t) :
    WorkerPhase.time (s.delivery.workers w).phase = some t ∨ t ≤ s.now := by
  obtain hkeep | ⟨b, d, rfl, rfl, h⟩ := worker_of_step hs w
  · exact Or.inl (hkeep ▸ ht)
  · cases h with
    | claim _ hle _ _ _ _ =>
      simp only [Delivery.setPhase_eq, Delivery.setWorker_workers, Function.update_self,
        WorkerPhase.time, Option.some.injEq] at ht
      exact Or.inr (ht ▸ hle)
    | returned _ _ =>
      simp only [Delivery.setPhase_eq, Delivery.setWorker_workers, Function.update_self,
        WorkerPhase.time, Option.some.injEq] at ht
      exact Or.inr (ht ▸ le_rfl)
    | resetStale _ => exact Or.inl ht
    | _ =>
      simp only [Delivery.setPhase_eq, Delivery.setWorker_workers, Function.update_self,
        WorkerPhase.time, reduceCtorEq] at ht

/-- The time of a read is the time of its step. -/
theorem readAt_of_step {cfg : Settings} {now : Time} {subscribers : List Subscriber}
    {s s' : Intake} {attempts attempts' : List DeliveryAttempt} {t : Tag} {a : HandlerAction}
    {r : Time} (h : HandlerStep cfg now subscribers s attempts t a s' attempts')
    (hr : Handler.readAt (s'.handlers t) = some r) : r = now := by
  cases h with
  | select _ =>
    simp only [Intake.setHandler_handlers, Function.update_self, Handler.readAt,
      Option.some.injEq] at hr
    exact hr.symm
  | commit _ hc =>
    obtain ⟨_, _, rfl⟩ := commitEvent_eq_some hc
    simp [Handler.readAt] at hr
  | commitLost _ hc =>
    obtain ⟨_, _, rfl⟩ := commitEvent_eq_some hc
    simp [Handler.readAt, raiseFrom] at hr
  | _ => simp [Handler.readAt, raiseFrom, crashHandler] at hr

/-! ## The invariant -/

/-- Time `t` is at most `now + delivery_max_delay_seconds`, to the microsecond. An infinite
maximum bounds nothing. -/
def WithinDelay (cfg : Settings) (now t : Time) : Prop :=
  ∀ c : ℚ, cfg.deliveryMaxDelaySeconds.value = c → t ≤ now + microseconds c

/-- A time that has passed is within the delay. -/
theorem WithinDelay.of_le {cfg : Settings} {now t : Time} (h : t ≤ now) : WithinDelay cfg now t :=
  fun _ _ => h.trans (Nat.le_add_right _ _)

/-- The bound moves with the clock. -/
theorem WithinDelay.later {cfg : Settings} {now now' t : Time} (h : WithinDelay cfg now t)
    (hle : now ≤ now') : WithinDelay cfg now' t :=
  fun c hc => (h c hc).trans (Nat.add_le_add_right hle _)

/-- Time `t` has passed, or is before the year 10000. -/
def InCalendar (now t : Time) : Prop := t ≤ now ∨ t < datetimeEnd

/-- A date of the calendar stays one. -/
theorem InCalendar.later {now now' t : Time} (h : InCalendar now t) (hle : now ≤ now') :
    InCalendar now' t :=
  h.imp_left fun ht => ht.trans hle

/-- The times in a row are not far ahead of the clock. -/
structure TimelyRow (cfg : Settings) (now : Time) (row : DeliveryAttempt) : Prop where
  nextAttemptAt : WithinDelay cfg now row.nextAttemptAt
  inCalendar : InCalendar now row.nextAttemptAt
  updatedAt : row.updatedAt ≤ now

structure ClockInv (cfg : Settings) (s : World) : Prop where
  row : ∀ row ∈ s.delivery.attempts, TimelyRow cfg s.now row
  worker : ∀ w t, WorkerPhase.time (s.delivery.workers w).phase = some t → t ≤ s.now
  handler : ∀ t r, Handler.readAt (s.intake.handlers t) = some r → r ≤ s.now

section
variable {cfg : Settings} {s s' : World} {a : Action}

/-- The clock does not go back. -/
theorem now_le_of_step (h : step cfg s a = some s') : s.now ≤ s'.now := by
  cases worldStep_of_eq_some h with
  | tick => exact Nat.le_add_right _ _
  | _ => exact le_rfl

/-- The date that is written is within the delay and in the calendar.
SOURCE: app/delivery/worker.py:126-158 -/
theorem dates_of_finalUpdate {attempt : DeliveryAttempt} {r : DeliveryResult}
    {now : Time} {k : Draw} {u : FinalUpdate} (h : finalUpdate cfg attempt r now k = some u) :
    WithinDelay cfg now u.nextAttemptAt ∧ InCalendar now u.nextAttemptAt := by
  unfold finalUpdate at h
  split at h
  · cases h
    exact ⟨.of_le le_rfl, Or.inl le_rfl⟩
  · split at h
    · cases h
      exact ⟨.of_le le_rfl, Or.inl le_rfl⟩
    · obtain ⟨_, hat, rfl⟩ := Option.map_eq_some_iff.1 h
      exact ⟨fun c hc => retryAt_le_max hat hc, Or.inr (retryAt_lt hat)⟩

/-- A flushed time is bounded when both values are. -/
theorem flushColumn_le {loaded assigned current bound : Time} (ha : assigned ≤ bound)
    (hc : current ≤ bound) : flushColumn loaded assigned current ≤ bound := by
  unfold flushColumn
  split
  · exact hc
  · exact ha

/-- A stale reset is not computed ahead of the clock. SOURCE: app/delivery/worker.py:37-39 -/
theorem reset_le_now {w : WorkerId} {t₀ : Time}
    (hs : step cfg s (.worker w (.resetStale t₀)) = some s') : t₀ ≤ s.now := by
  cases worldStep_of_eq_some hs with
  | worker h =>
    cases h with
    | resetStale ht => exact ht

/-- Each of the writers of a row keeps the bounds. -/
theorem TimelyRow.step {row row' : DeliveryAttempt} (hinv : ClockInv cfg s)
    (hrow : row ∈ s.delivery.attempts) (hs : Program.step cfg s a = some s')
    (h : AttemptStep cfg s a row row') : TimelyRow cfg s.now row' := by
  obtain ⟨hnext, hcal, hupd⟩ := hinv.row row hrow
  cases h with
  | same => exact ⟨hnext, hcal, hupd⟩
  | @mark w t₀ picked _ hph _ => exact ⟨hnext, hcal, hinv.worker w t₀ (by rw [hph]; rfl)⟩
  | close _ _ _ => exact ⟨hnext, hcal, le_rfl⟩
  | @writeBack w x r at' k todo u _ hph _ _ hu =>
    have hat : at' ≤ s.now := hinv.worker w at' (by rw [hph]; rfl)
    obtain ⟨hwithin, hdate⟩ := dates_of_finalUpdate hu
    exact ⟨hwithin.later hat, hdate.later hat, hat⟩
  | reset _ =>
    have hle := reset_le_now hs
    exact ⟨.of_le hle, Or.inl hle, hle⟩
  | @retry _ loaded _ _ _ _ =>
    have hflush : InCalendar s.now (flushColumn loaded.nextAttemptAt s.now row.nextAttemptAt) := by
      unfold flushColumn
      split
      · exact hcal
      · exact Or.inl le_rfl
    exact ⟨fun c hc => flushColumn_le (Nat.le_add_right _ _) (hnext c hc), hflush,
      flushColumn_le le_rfl hupd⟩

/-- A row that is timely stays so. -/
theorem TimelyRow.later {row : DeliveryAttempt} {now now' : Time} (h : TimelyRow cfg now row)
    (hle : now ≤ now') : TimelyRow cfg now' row :=
  ⟨h.nextAttemptAt.later hle, h.inCalendar.later hle, h.updatedAt.trans hle⟩

/-- One step keeps the times before the clock, and the retries near it.
SOURCE: app/delivery/worker.py:126-174 -/
theorem clockInv_step (hinv : ClockInv cfg s) (hs : step cfg s a = some s') :
    ClockInv cfg s' := by
  have hle := now_le_of_step hs
  refine ⟨fun row' hrow' => ?_, fun w t ht => ?_, fun t r hr => ?_⟩
  · obtain ⟨row, hrow, hstep⟩ | ⟨hnew, _⟩ := (attemptsStep_of_step hs).of_mem hrow'
    · exact (TimelyRow.step hinv hrow hs hstep).later hle
    · obtain ⟨t, _, _, _, hh⟩ := hnew.selected
      have hread : row'.nextAttemptAt ≤ s.now := hinv.handler t _ (by rw [hh]; rfl)
      have htimely : TimelyRow cfg s.now row' :=
        ⟨.of_le hread, Or.inl hread, hnew.updatedAt.le⟩
      exact htimely.later hle
  · obtain ht | ht := workerTime_of_step hs ht
    · exact (hinv.worker w t ht).trans hle
    · exact ht.trans hle
  · have hold : s'.intake.handlers t = s.intake.handlers t → r ≤ s'.now := by
      intro heq
      rw [heq] at hr
      exact (hinv.handler t r hr).trans hle
    cases callStep_of_step hs t with
    | still _ hh => exact hold hh
    | published _ _ hh => exact hold hh
    | reEnqueued _ _ _ hh => exact hold hh
    | moved h => exact (readAt_of_step h hr).le.trans hle

/-- The times of the rows are before the clock, and the retries near it, in every reachable state.
-/
theorem clockInv_of_reachable (h : Reachable (step cfg) World.init s) : ClockInv cfg s := by
  refine h.induct (I := ClockInv cfg) ?_ fun _ _ _ _ hinv hs => clockInv_step hinv hs
  refine ⟨fun _ hrow => absurd hrow List.not_mem_nil, fun w t ht => ?_, fun t r hr => ?_⟩
  · cases ht
  · cases hr

end

/-! ## One stale reset -/

/-- What holds of every attempt row at time `now`. SOURCE: app/db/models.py:71 -/
structure Recoverable (cfg : Settings) (now : Time) (row : DeliveryAttempt) : Prop where
  status : row.status ∈ [.pending, .inFlight, .failed, .delivered, .dead]
  nextAttemptAt : row.status = .pending ∨ row.status = .failed →
    WithinDelay cfg now row.nextAttemptAt
  updatedAt : row.status = .inFlight → row.updatedAt ≤ now

/-- A row that is not finished satisfies the claim predicate at time `t` and ever after.
SOURCE: app/delivery/worker.py:67-70 -/
def ClaimableFrom (t : Time) (row : DeliveryAttempt) : Prop :=
  row.status ≠ .delivered → row.status ≠ .dead → ∀ t', t ≤ t' → claimable t' row = true

section
variable {cfg : Settings}

/-- An open row can be claimed from its time on. SOURCE: app/delivery/worker.py:65-71 -/
theorem claimable_of_open {row : DeliveryAttempt} {t : Time} (h : Open row)
    (ht : row.nextAttemptAt ≤ t) : claimable t row = true := by
  simp only [claimable, Bool.and_eq_true, Bool.or_eq_true, decide_eq_true_eq]
  exact ⟨h, ht⟩

/-- A row that the reset has seen is claimable, whether the reset has changed it or not.
SOURCE: app/delivery/worker.py:38-47 -/
theorem claimableFrom_reset {now T : Time} {row : DeliveryAttempt}
    (hrow : TimelyRow cfg now row) (hstale : now + cfg.deliveryStaleInFlight < T)
    {c : ℚ} (hmax : cfg.deliveryMaxDelaySeconds.value = c) (hdelay : now + microseconds c ≤ T) :
    ∀ row' ∈ resetStaleInFlight cfg T [row], ClaimableFrom T row' := by
  intro row' hrow' hdel hdead t' ht'
  obtain ⟨hmem, hnot⟩ | ⟨r, hr, _, rfl⟩ := of_mem_updateWhere hrow'
  · rw [List.mem_singleton] at hmem
    subst hmem
    have hnext : row'.nextAttemptAt ≤ t' := ((hrow.nextAttemptAt c hmax).trans hdelay).trans ht'
    cases hst : row'.status with
    | pending => exact claimable_of_open (Or.inl hst) hnext
    | failed => exact claimable_of_open (Or.inr hst) hnext
    | inFlight =>
      -- An in-flight row that the reset does not select would be younger than the threshold.
      have hold : row'.updatedAt + cfg.deliveryStaleInFlight < T :=
        (Nat.add_le_add_right hrow.updatedAt _).trans_lt hstale
      simp [staleInFlight, hst, hold] at hnot
    | delivered => exact absurd hst hdel
    | dead => exact absurd hst hdead
  · exact claimable_of_open (Or.inr rfl) ht'

/-- In every reachable state the rows are recoverable; and if nothing happens until a stale
reset at a time `T` that is late enough, then every row that is not finished is claimable from
`T` on, and the reset keeps all counters.
SOURCE: app/delivery/worker.py:36-174, app/api/deliveries.py:50-71,
app/consumer/rabbitmq.py:74-93 -/
theorem no_delivery_stuck (cfg : Settings) (s : World)
    (h : Reachable (step cfg) World.init s) :
    (∀ row ∈ s.delivery.attempts, Recoverable cfg s.now row) ∧
    ∀ (w : WorkerId) (d T : Time) (c : ℚ), T ≤ s.now + d →
      s.now + cfg.deliveryStaleInFlight < T →
      cfg.deliveryMaxDelaySeconds.value = c → s.now + microseconds c ≤ T →
      ∃ s', run (step cfg) s [.tick d, .worker w (.resetStale T)] = some s' ∧
        s'.delivery.attempts.map (fun row => (row.id, row.attemptCount)) =
          s.delivery.attempts.map (fun row => (row.id, row.attemptCount)) ∧
        ∀ row ∈ s'.delivery.attempts, ClaimableFrom T row := by
  have hinv := clockInv_of_reachable h
  refine ⟨fun row hrow => ?_, fun w d T c hT hstale hmax hdelay => ?_⟩
  · obtain ⟨hnext, _, hupd⟩ := hinv.row row hrow
    refine ⟨?_, fun _ => hnext, fun _ => hupd⟩
    cases row.status <;> simp
  · have hrun : run (step cfg) s [.tick d, .worker w (.resetStale T)] =
        some
          { s with
            now := s.now + d
            delivery :=
              { s.delivery with attempts := resetStaleInFlight cfg T s.delivery.attempts } } := by
      simp [run, step, worker, hT]
    refine ⟨_, hrun, ?_, ?_⟩
    · exact map_updateWhere _ fun _ _ => rfl
    · intro row' hrow'
      obtain ⟨row, hrow, hmem⟩ : ∃ row ∈ s.delivery.attempts,
          row' ∈ resetStaleInFlight cfg T [row] := by
        obtain ⟨row, hrow, heq⟩ := mem_updateWhere.1 hrow'
        exact ⟨row, hrow, mem_updateWhere.2 ⟨row, List.mem_singleton_self row, heq⟩⟩
      exact claimableFrom_reset (hinv.row row hrow) hstale hmax hdelay row' hmem

end

/-! ## A concrete history -/

/-- The worker dies between the claim and the write-back. -/
def crashWhilePosting : List Action :=
  oneAttempt ++ claimBatch 0 0 [⟨3⟩] ++ [.worker 0 .fetch, .worker 0 .post, .worker 0 .crash]

theorem crashWhilePosting_enabled :
    (run (step .default) World.init crashWhilePosting).isSome = true := by decide

def crashed : World := (run (step .default) World.init crashWhilePosting).get crashWhilePosting_enabled

/-- The row of the worker that died can be claimed after a stale reset. -/
theorem no_delivery_stuck_crashed : ∃ s',
    run (step .default) crashed [.tick (minutes 11), .worker 1 (.resetStale (minutes 11))] =
      some s' ∧
      ∀ row ∈ s'.delivery.attempts, ClaimableFrom (minutes 11) row := by
  have h := (no_delivery_stuck .default crashed (Reachable.of_run crashWhilePosting_enabled)).2 1
    (minutes 11) (minutes 11) 300 (by decide) (by decide) (Binary64.value_ofRat isFinite_300)
    (by decide +kernel)
  exact h.imp fun _ hs => ⟨hs.1, hs.2.2⟩

end EventPipeline.Analysis

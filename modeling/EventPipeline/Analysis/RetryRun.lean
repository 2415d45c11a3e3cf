import EventPipeline.Computation.Trials
import EventPipeline.Analysis.BatchFinalisation

/-!
# The retries of one row

A row is claimed and delivered each time it becomes due. It ends `delivered` at the first 2xx
answer and `dead` when its count reaches the limit, and every failure before leaves it
`failed` with a delay under the cap of the backoff. This is so exactly when every failure
leaves a storable text and every retry has a date: a failure of another kind is never recorded,
and its row stays `in_flight`.
-/

set_option autoImplicit false

namespace EventPipeline.Analysis

open EventPipeline.Model EventPipeline.Program EventPipeline.Interface EventPipeline.Computation

/-! ## The specification -/

instance : DecidablePred Answered2xx
  | .response _ _ => inferInstanceAs (Decidable (_ ∧ _))
  | .timeout _ | .requestError _ | .raised => isFalse id

/-- `min k (max 1 (M - c))` for the position `k` of the first 2xx answer, counted from 1, the
limit `M` and the count `c` that the row starts with; `max 1 (M - c)` without a 2xx answer. -/
def postCount (cfg : Settings) (a : DeliveryAttempt) (rounds : ℕ → RetryRound) : ℕ :=
  trials (fun j => Answered2xx (rounds j).outcome)
    (max 1 (cfg.deliveryMaxAttempts - a.attemptCount))

/-- With a first success after `j` failures there are `min (j + 1) (max 1 (M - c))` POSTs. -/
theorem postCount_of_first {cfg : Settings} {a : DeliveryAttempt} {rounds : ℕ → RetryRound} {j : ℕ}
    (hj : Answered2xx (rounds j).outcome) (hfirst : ∀ i < j, ¬ Answered2xx (rounds i).outcome) :
    postCount cfg a rounds = min (j + 1) (max 1 (cfg.deliveryMaxAttempts - a.attemptCount)) :=
  trials_of_first hj hfirst

/-- Without any success there are `max 1 (M - c)` POSTs. -/
theorem postCount_of_none {cfg : Settings} {a : DeliveryAttempt} {rounds : ℕ → RetryRound}
    (h : ∀ j, ¬ Answered2xx (rounds j).outcome) :
    postCount cfg a rounds = max 1 (cfg.deliveryMaxAttempts - a.attemptCount) :=
  trials_of_none h

/-- The status code of the answer, if there is one. -/
def httpStatus : PostOutcome → Option ℕ
  | .response statusCode _ => some statusCode
  | _ => none

/-- The row after a failure that leaves it attempts. The upper limit of the delay,
`min(base * 2 ** n, max_delay)`, counts to the microsecond, as a `timedelta` does. -/
structure FailedRow (cfg : Settings) (r : RetryRound) (before after : DeliveryAttempt) : Prop where
  status : after.status = .failed
  lastHttpStatus : after.lastHttpStatus = httpStatus r.outcome
  notBefore : r.finish before ≤ after.nextAttemptAt
  notAfter : ∀ c : ℚ, upperLimit cfg after.attemptCount = c →
    after.nextAttemptAt ≤ r.finish before + microseconds c

/-- What the retries of the row `a` do, for the states `states j` after `j` rounds. -/
structure RetriedAsSpecified (cfg : Settings) (a : DeliveryAttempt) (rounds : ℕ → RetryRound)
    (states : ℕ → RetryState) : Prop where
  posts : ∀ N ≥ postCount cfg a rounds, (states N).posts.length = postCount cfg a rounds
  ended : ∀ N ≥ postCount cfg a rounds,
    ∃ row, lookup DeliveryAttempt.id a.id (states N).attempts = some row ∧
      row.attemptCount = a.attemptCount + postCount cfg a rounds ∧
      row.status =
        if Answered2xx (rounds (postCount cfg a rounds - 1)).outcome then .delivered else .dead
  failed : ∀ j, j + 1 < postCount cfg a rounds → ∃ before after,
    lookup DeliveryAttempt.id a.id (states j).attempts = some before ∧
    lookup DeliveryAttempt.id a.id (states (j + 1)).attempts = some after ∧
    after.attemptCount = a.attemptCount + (j + 1) ∧ FailedRow cfg (rounds j) before after

/-- A failure leaves a text that the column takes.
SOURCE: app/delivery/sender.py:69-90, app/delivery/worker.py:138,152 -/
def StorableFailure : PostOutcome → Prop
  | .response statusCode text => (200 ≤ statusCode ∧ statusCode < 300) ∨
      ∀ t ∈ text, Json.storable (t.take 500) = true
  | .timeout exc | .requestError exc => Json.storable exc = true
  | .raised => False

/-- The time when round `j` becomes due, if every failure before is retried after its delay. -/
def dueTime (cfg : Settings) (a : DeliveryAttempt) (rounds : ℕ → RetryRound) : ℕ → Time
  | 0 => a.nextAttemptAt
  | j + 1 => dueTime cfg a rounds j + (rounds j).wait + (rounds j).latency +
      retryDelay cfg (a.attemptCount + (j + 1)) (rounds j).draw

/-- Round `j` is not the last one, so its retry needs a date before the year 10000.
SOURCE: app/delivery/worker.py:146-151 -/
def DatedRetry (cfg : Settings) (a : DeliveryAttempt) (rounds : ℕ → RetryRound) (j : ℕ) : Prop :=
  j + 1 < postCount cfg a rounds →
    RetryDated cfg (a.attemptCount + (j + 1))
      (dueTime cfg a rounds j + (rounds j).wait + (rounds j).latency) (rounds j).draw

instance (cfg : Settings) (a : DeliveryAttempt) (rounds : ℕ → RetryRound) (j : ℕ) :
    Decidable (DatedRetry cfg a rounds j) :=
  inferInstanceAs (Decidable (_ → _))

/-! ## One round -/

section
variable {cfg : Settings} {id : Uuid} {a row : DeliveryAttempt} {r : RetryRound} {s : RetryState}

/-- The harmless outcomes leave a storable text, and a date for the retry if there is one. -/
theorem harmless_iff {o : PostOutcome} {now : Time} {k : Draw} : Harmless cfg a now k o ↔
    StorableFailure o ∧ (Answered2xx o ∨ BackoffFits cfg a now k) := by
  cases o with
  | response statusCode text => exact or_and_left
  | timeout exc | requestError exc =>
    exact and_congr_right fun _ => (or_iff_right id).symm
  | raised => exact iff_of_false id fun h => h.1

/-- The result has the status code of the outcome. SOURCE: app/delivery/sender.py:65-90 -/
theorem lastHttpStatus_of_deliver {o : PostOutcome} {res : DeliveryResult}
    (h : deliver o = some res) : res.statusCode = httpStatus o := by
  cases o <;> cases h <;> rfl

/-- The row that a recorded round leaves. -/
structure RoundDone (cfg : Settings) (r : RetryRound) (a row : DeliveryAttempt) : Prop where
  messageId : row.messageId = a.messageId
  subscriberId : row.subscriberId = a.subscriberId
  attemptCount : row.attemptCount = a.attemptCount + 1
  status : row.status =
    if Answered2xx r.outcome then .delivered
    else if cfg.deliveryMaxAttempts ≤ a.attemptCount + 1 then .dead else .failed
  failed : row.status = .failed → FailedRow cfg r a row
  retried : row.status = .failed →
    row.nextAttemptAt = r.finish a + retryDelay cfg (a.attemptCount + 1) r.draw

/-- SOURCE: app/delivery/worker.py:126-173 -/
theorem roundDone_of_finalUpdate {res : DeliveryResult} {u : FinalUpdate} {t₀ : Time}
    (hr : deliver r.outcome = some res)
    (hu : finalUpdate cfg a res (r.finish a) r.draw = some u) :
    RoundDone cfg r a
      (u.apply a res (r.finish a) { a with status := .inFlight, updatedAt := t₀ }) := by
  have hsuccess := success_iff_of_deliver hr
  have hstatus := lastHttpStatus_of_deliver hr
  unfold finalUpdate at hu
  by_cases hs : res.success = true
  · rw [if_pos hs] at hu
    cases hu
    exact ⟨rfl, rfl, rfl, (if_pos (hsuccess.1 hs)).symm, nofun, nofun⟩
  · rw [if_neg hs] at hu
    rw [hsuccess] at hs
    by_cases hlimit : cfg.deliveryMaxAttempts ≤ a.attemptCount + 1
    · rw [if_pos hlimit] at hu
      cases hu
      refine ⟨rfl, rfl, rfl, ?_, nofun, nofun⟩
      rw [if_neg hs, if_pos hlimit]
      rfl
    · rw [if_neg hlimit] at hu
      obtain ⟨nextAttemptAt, hat, rfl⟩ := Option.map_eq_some_iff.1 hu
      obtain ⟨hnotBefore, c, hlimit', hle⟩ := retryAt_le hat
      refine ⟨rfl, rfl, rfl, ?_, fun _ => ⟨rfl, hstatus, hnotBefore, fun c' hc' => ?_⟩,
        fun _ => eq_add_retryDelay hat⟩
      · rw [if_neg hs, if_neg hlimit]
        rfl
      · obtain rfl : c = c' := WithTop.coe_injective (hlimit'.symm.trans hc')
        exact hle

/-- SOURCE: app/delivery/worker.py:84-88 -/
theorem lookup_markInFlight {t : List DeliveryAttempt} {t₀ : Time}
    (h : lookup DeliveryAttempt.id a.id t = some a) :
    lookup DeliveryAttempt.id a.id (markInFlight [a.id] t₀ t) =
      some { a with status := .inFlight, updatedAt := t₀ } := by
  unfold markInFlight
  refine (lookup_updateWhere ?_ t).trans ?_
  · exact fun _ _ => rfl
  · rw [h, Option.map_some, if_pos (List.mem_singleton.2 rfl)]

/-- SOURCE: app/delivery/worker.py:161-173 -/
theorem lookup_updateAttempt {t : List DeliveryAttempt} {f : DeliveryAttempt → DeliveryAttempt}
    (hf : ∀ row, (f row).id = row.id) (h : lookup DeliveryAttempt.id id t = some a) :
    lookup DeliveryAttempt.id id (updateAttempt id f t) = some (f a) := by
  unfold updateAttempt
  refine (lookup_updateWhere ?_ t).trans ?_
  · exact fun row _ => hf row
  · rw [h, Option.map_some, if_pos (of_lookup_eq_some h).2]

/-- A round of a row that is due is a batch of this row. -/
theorem retryRound_of_due (hrow : lookup DeliveryAttempt.id id s.attempts = some a)
    (hdue : due a = true) : retryRound cfg id r s =
      ⟨(processBatch cfg (r.start a) (r.batch a) s.attempts).1,
        s.posts ++ batchPosts cfg (r.batch a) (markInFlight [a.id] (r.start a) s.attempts)⟩ := by
  unfold retryRound
  rw [hrow, Option.filter_some, if_pos hdue]

/-- A round of a due row makes one request. It is recorded when the outcome is harmless,
otherwise the row stays as the claim has left it. -/
theorem retryRound_due (hrow : lookup DeliveryAttempt.id id s.attempts = some a)
    (hdue : due a = true) :
    (retryRound cfg id r s).posts = s.posts ++ [postOf ⟨a, r.event⟩ r.sub] ∧
    ∃ row, lookup DeliveryAttempt.id id (retryRound cfg id r s).attempts = some row ∧
      ((Harmless cfg a (r.finish a) r.draw r.outcome ∧ RoundDone cfg r a row) ∨
        (¬ Harmless cfg a (r.finish a) r.draw r.outcome ∧
          row = { a with status := .inFlight, updatedAt := r.start a })) := by
  obtain ⟨_, rfl⟩ := of_lookup_eq_some hrow
  have hmarked : lookup DeliveryAttempt.id a.id (markInFlight [a.id] (r.start a) s.attempts) =
      some { a with status := .inFlight, updatedAt := r.start a } := lookup_markInFlight hrow
  have hharmless : RowHarmless cfg ⟨a, r.event⟩ ⟨some r.sub, r.outcome, r.finish a, r.draw⟩ ↔
      Harmless cfg a (r.finish a) r.draw r.outcome := ⟨fun h => h r.receives, fun h _ => h⟩
  have hsub : (some r.sub).any Subscriber.receives = true := r.receives
  rw [retryRound_of_due hrow hdue]
  refine ⟨?_, ?_⟩
  · simp only [RetryRound.batch, batchPosts, attemptPosts, r.receives, if_true]
    cases deliverAttempt cfg ⟨a, r.event⟩ ⟨some r.sub, r.outcome, r.finish a, r.draw⟩
      (markInFlight [a.id] (r.start a) s.attempts) <;> rfl
  · have hiff : (deliverAttempt cfg ⟨a, r.event⟩ ⟨some r.sub, r.outcome, r.finish a, r.draw⟩
        (markInFlight [a.id] (r.start a) s.attempts)).isSome = true ↔
        Harmless cfg a (r.finish a) r.draw r.outcome :=
      deliverAttempt_isSome_iff.trans hharmless
    simp only [processBatch, RetryRound.batch, List.map_cons, List.map_nil]
    cases hd : deliverAttempt cfg ⟨a, r.event⟩ ⟨some r.sub, r.outcome, r.finish a, r.draw⟩
        (markInFlight [a.id] (r.start a) s.attempts) with
    | none =>
      rw [hd] at hiff
      rw [deliverBatch_cons_of_none hd]
      exact ⟨_, hmarked, Or.inr ⟨fun h => Bool.false_ne_true (hiff.2 h), rfl⟩⟩
    | some t' =>
      rw [hd] at hiff
      rw [deliverBatch_cons_of_some hd, deliverBatch]
      obtain ⟨res, u, hr, hu, rfl⟩ := exists_finalUpdate_of_deliverAttempt hsub hd
      exact ⟨_, lookup_updateAttempt (fun _ => rfl) hmarked,
        Or.inl ⟨hiff.1 rfl, roundDone_of_finalUpdate hr hu⟩⟩

/-- A row that is not due is left alone. -/
theorem retryRound_not_due (hrow : lookup DeliveryAttempt.id id s.attempts = some a)
    (hdue : ¬ due a = true) : retryRound cfg id r s = s := by
  unfold retryRound
  rw [hrow, Option.filter_some, if_neg hdue]

end

/-! ## The whole run -/

section
variable {cfg : Settings} {a : DeliveryAttempt} {rounds : ℕ → RetryRound} {s : RetryState}
  {t : List DeliveryAttempt}

/-- There is at least one POST. -/
theorem postCount_pos : 0 < postCount cfg a rounds :=
  trials_pos (lt_of_lt_of_le Nat.one_pos (le_max_left _ _))

/-- The state after `j` rounds of which all are recorded. -/
structure Retrying (cfg : Settings) (a : DeliveryAttempt) (rounds : ℕ → RetryRound) (j : ℕ)
    (s : RetryState) (row : DeliveryAttempt) : Prop where
  found : lookup DeliveryAttempt.id a.id s.attempts = some row
  posts : s.posts.length = j
  attemptCount : row.attemptCount = a.attemptCount + j
  due : j < postCount cfg a rounds → due row = true
  nextAttemptAt : j < postCount cfg a rounds → row.nextAttemptAt = dueTime cfg a rounds j

/-- How round `j` ends: as a failure that leaves attempts exactly when there is a next one. -/
theorem status_of_roundDone {row row' : DeliveryAttempt} {j : ℕ}
    (hj : j < postCount cfg a rounds) (hcount : row.attemptCount = a.attemptCount + j)
    (h : RoundDone cfg (rounds j) row row') :
    (j + 1 < postCount cfg a rounds ∧ row'.status = .failed) ∨
      (j + 1 = postCount cfg a rounds ∧
        row'.status = if Answered2xx (rounds j).outcome then .delivered else .dead) := by
  have hstatus := h.status
  rw [hcount] at hstatus
  obtain hnext | hlast := Nat.lt_or_eq_of_le (Nat.succ_le_of_lt hj)
  · refine Or.inl ⟨hnext, ?_⟩
    obtain ⟨hlimit, hnot⟩ := lt_trials_iff.1 hnext
    rw [hstatus, if_neg (hnot j (Nat.lt_succ_self j)), if_neg (by omega)]
  · refine Or.inr ⟨hlast, ?_⟩
    rw [hstatus]
    by_cases h2xx : Answered2xx (rounds j).outcome
    · rw [if_pos h2xx, if_pos h2xx]
    · have hlimit := (last_trial hlast).resolve_left h2xx
      rw [if_neg h2xx, if_neg h2xx, if_pos (by omega)]

/-- Round `j` is harmless when its failure leaves a storable text and its retry has a date. -/
theorem Retrying.harmless_iff {row : DeliveryAttempt} {j : ℕ} (h : Retrying cfg a rounds j s row)
    (hj : j < postCount cfg a rounds) :
    Harmless cfg row ((rounds j).finish row) (rounds j).draw (rounds j).outcome ↔
      StorableFailure (rounds j).outcome ∧ DatedRetry cfg a rounds j := by
  rw [Analysis.harmless_iff]
  refine and_congr_right fun _ => ?_
  unfold BackoffFits DatedRetry RetryRound.finish RetryRound.start
  rw [h.nextAttemptAt hj, h.attemptCount, Nat.add_assoc]
  obtain hnext | hlast := Nat.lt_or_eq_of_le (Nat.succ_le_of_lt hj)
  · -- There is a next round, so the failure leaves attempts.
    obtain ⟨hlimit, hnot⟩ := lt_trials_iff.1 hnext
    have hmore : ¬ cfg.deliveryMaxAttempts ≤ a.attemptCount + (j + 1) := by omega
    rw [or_iff_right (hnot j (Nat.lt_succ_self j)), or_iff_right hmore]
    exact ⟨fun hdated _ => hdated, fun hdated => hdated hnext⟩
  · refine iff_of_true ?_ fun hnext => absurd hlast hnext.ne
    refine (last_trial hlast).imp_right fun hlimit => Or.inl ?_
    omega

/-- One recorded round. SOURCE: app/delivery/worker.py:101-174 -/
theorem Retrying.round {row : DeliveryAttempt} {j : ℕ}
    (h : Retrying cfg a rounds j s row) (hj : j < postCount cfg a rounds)
    (hok : StorableFailure (rounds j).outcome ∧ DatedRetry cfg a rounds j) :
    ∃ row', Retrying cfg a rounds (j + 1) (retryRound cfg a.id (rounds j) s) row' ∧
      RoundDone cfg (rounds j) row row' := by
  obtain ⟨hposts, row', hrow', ⟨_, hdone⟩ | ⟨hnot, _⟩⟩ := retryRound_due h.found (h.due hj)
  · have hfailed : j + 1 < postCount cfg a rounds → row'.status = .failed := by
      intro hnext
      obtain ⟨_, hfailed⟩ | ⟨hlast, _⟩ := status_of_roundDone hj h.attemptCount hdone
      · exact hfailed
      · exact absurd hlast hnext.ne
    refine ⟨row', ⟨hrow', ?_, ?_, fun hnext => ?_, fun hnext => ?_⟩, hdone⟩
    · rw [hposts, List.length_append, h.posts, List.length_singleton]
    · rw [hdone.attemptCount, h.attemptCount, Nat.add_assoc]
    · simp [Program.due, hfailed hnext]
    · rw [hdone.retried (hfailed hnext), RetryRound.finish, RetryRound.start, h.nextAttemptAt hj,
        h.attemptCount]
      rfl
  · exact absurd ((h.harmless_iff hj).2 hok) hnot

/-- The first `j` rounds, when the failures before leave storable texts and dated retries. -/
theorem exists_retrying (ha : lookup DeliveryAttempt.id a.id t = some a) (hdue : due a = true)
    {j : ℕ} (hj : j ≤ postCount cfg a rounds)
    (hok : ∀ i < j, StorableFailure (rounds i).outcome ∧ DatedRetry cfg a rounds i) :
    ∃ row, Retrying cfg a rounds j (retryRun cfg a.id rounds ⟨t, []⟩ j) row := by
  induction j with
  | zero => exact ⟨a, ha, rfl, rfl, fun _ => hdue, fun _ => rfl⟩
  | succ j ih =>
    obtain ⟨row, hrow⟩ := ih (Nat.le_of_succ_le hj) fun i hi => hok i (Nat.lt_succ_of_lt hi)
    obtain ⟨row', hrow', _⟩ := hrow.round hj (hok j (Nat.lt_succ_self j))
    exact ⟨row', hrow'⟩

/-- The state after the last round. -/
theorem exists_ended (ha : lookup DeliveryAttempt.id a.id t = some a) (hdue : due a = true)
    (hok : ∀ j < postCount cfg a rounds,
      StorableFailure (rounds j).outcome ∧ DatedRetry cfg a rounds j) :
    ∃ row, Retrying cfg a rounds (postCount cfg a rounds)
        (retryRun cfg a.id rounds ⟨t, []⟩ (postCount cfg a rounds)) row ∧
      row.status =
        if Answered2xx (rounds (postCount cfg a rounds - 1)).outcome then .delivered else .dead := by
  obtain ⟨j, hlast⟩ := Nat.exists_eq_add_one.2 (postCount_pos : 0 < postCount cfg a rounds)
  have hj : j < postCount cfg a rounds := by omega
  obtain ⟨row, hrow⟩ := exists_retrying ha hdue hj.le fun i hi => hok i (hi.trans hj)
  obtain ⟨row', hrow', hdone⟩ := hrow.round hj (hok j hj)
  obtain ⟨hnext, _⟩ | ⟨_, hstatus⟩ := status_of_roundDone hj hrow.attemptCount hdone
  · exact absurd hlast hnext.ne'
  · refine ⟨row', ?_, ?_⟩
    · rw [hlast]
      exact hrow'
    · rw [hlast, Nat.add_sub_cancel]
      exact hstatus

/-- A row that is not due stays as it is, and no more requests are made. -/
theorem retryRun_of_not_due {row : DeliveryAttempt} {n N : ℕ} (hN : n ≤ N)
    (hrow : lookup DeliveryAttempt.id a.id (retryRun cfg a.id rounds s n).attempts = some row)
    (hdue : ¬ due row = true) : retryRun cfg a.id rounds s N = retryRun cfg a.id rounds s n := by
  induction N, hN using Nat.le_induction with
  | base => rfl
  | succ N _ ih =>
    rw [retryRun, ih]
    exact retryRound_not_due hrow hdue

end

/-- The retries of a row do what their specification says exactly when every failure among
them leaves a storable text, and a date for the retry that follows it.
SOURCE: app/delivery/worker.py:29-33,58-98,101-174, app/delivery/sender.py:65-90 -/
theorem retry_run_iff (cfg : Settings) (t : List DeliveryAttempt) (a : DeliveryAttempt)
    (ha : lookup DeliveryAttempt.id a.id t = some a) (hdue : due a = true)
    (rounds : ℕ → RetryRound) :
    RetriedAsSpecified cfg a rounds (retryRun cfg a.id rounds ⟨t, []⟩) ↔
      ∀ j < postCount cfg a rounds,
        StorableFailure (rounds j).outcome ∧ DatedRetry cfg a rounds j := by
  constructor
  · intro hspec j
    induction j using Nat.strong_induction_on with
    | _ j ih =>
      intro hj
      obtain ⟨row, hrow⟩ := exists_retrying ha hdue hj.le fun i hi => ih i hi (hi.trans hj)
      obtain ⟨_, row', hrow', ⟨hharmless, _⟩ | ⟨_, hstuck⟩⟩ := retryRound_due hrow.found (hrow.due hj)
      · exact (hrow.harmless_iff hj).1 hharmless
      · -- The row is stuck, but the specification says how it is after round `j`.
        have hinFlight : row'.status = .inFlight := by rw [hstuck]
        obtain hnext | hlast := Nat.lt_or_eq_of_le (Nat.succ_le_of_lt hj)
        · obtain ⟨_, after, _, hafter, _, hfailed⟩ := hspec.failed j hnext
          obtain rfl := Option.some.inj (hrow'.symm.trans hafter)
          cases hinFlight.symm.trans hfailed.status
        · obtain ⟨after, hafter, _, hstatus⟩ := hspec.ended (j + 1) hlast.ge
          obtain rfl := Option.some.inj (hrow'.symm.trans hafter)
          rw [hinFlight] at hstatus
          split at hstatus <;> cases hstatus
  · intro hok
    obtain ⟨row, hrow, hstatus⟩ := exists_ended ha hdue hok
    have hstop : ¬ due row = true := by
      unfold Program.due
      rw [hstatus]
      split <;> decide
    have hafter : ∀ N ≥ postCount cfg a rounds, retryRun cfg a.id rounds ⟨t, []⟩ N =
        retryRun cfg a.id rounds ⟨t, []⟩ (postCount cfg a rounds) :=
      fun N hN => retryRun_of_not_due hN hrow.found hstop
    refine ⟨fun N hN => ?_, fun N hN => ?_, fun j hj => ?_⟩
    · rw [hafter N hN]
      exact hrow.posts
    · rw [hafter N hN]
      exact ⟨row, hrow.found, hrow.attemptCount, hstatus⟩
    · have hj' : j < postCount cfg a rounds := Nat.lt_of_succ_lt hj
      obtain ⟨before, hbefore⟩ := exists_retrying ha hdue hj'.le
        fun i hi => hok i (hi.trans hj')
      obtain ⟨after, hafter, hdone⟩ := hbefore.round hj' (hok j hj')
      obtain ⟨_, hfailed⟩ | ⟨hlast, _⟩ := status_of_roundDone hj' hbefore.attemptCount hdone
      · exact ⟨before, after, hbefore.found, hafter.found, hafter.attemptCount, hdone.failed hfailed⟩
      · exact absurd hlast hj.ne

/-! ## The rounds as steps of the worker -/

/-- Worker `w` is idle, and its table and its requests are those of `s`. -/
structure Mirrors (w : WorkerId) (d : Delivery) (s : RetryState) : Prop where
  phase : (d.workers w).phase = .idle
  rowLocks : d.rowLocks = []
  attempts : d.attempts = s.attempts
  posts : d.posts = s.posts

section
variable {cfg : Settings} {keys : List IdempotencyKey} {w : WorkerId} {d : Delivery}
  {s : RetryState} {id : Uuid} {r : RetryRound} {a : DeliveryAttempt}

/-- The round finds its event and its subscriber next to the row. -/
def LoadsWith (keys : List IdempotencyKey) (r : RetryRound) (a : DeliveryAttempt) : Prop :=
  lookup IdempotencyKey.messageId a.messageId keys = some r.event ∧ r.sub.id = a.subscriberId

/-- A round is a run of the worker. -/
theorem run_retryRound (h : Mirrors w d s) (hsize : 1 ≤ cfg.deliveryBatchSize)
    (hrow : lookup DeliveryAttempt.id id s.attempts = some a) (hloads : LoadsWith keys r a) :
    ∃ actions d', run (aloneStep cfg keys w) d actions = some d' ∧
      Mirrors w d' (retryRound cfg id r s) := by
  obtain ⟨_, rfl⟩ := of_lookup_eq_some hrow
  by_cases hdue : due a = true
  · have hclaimable : claimable (r.start a) a = true := by
      unfold claimable
      rw [Bool.and_eq_true]
      exact ⟨hdue, decide_eq_true (Nat.le_add_right _ _)⟩
    have hsnapshot : snapshotOf d.attempts keys a.id = some ⟨a, r.event⟩ := by
      rw [snapshotOf, h.attempts, hrow, Option.bind_some, hloads.1, Option.map_some]
    obtain ⟨actions, d', hrun, hlocks, hph, hattempts, hposts⟩ : ∃ actions d',
        run (aloneStep cfg keys w) d actions = some d' ∧ d'.rowLocks = [] ∧
        (d'.workers w).phase = .idle ∧
        d'.attempts = (processBatch cfg (r.start a) (r.batch a) d.attempts).1 ∧
        d'.posts = d.posts ++
          batchPosts cfg (r.batch a) (markInFlight (batchIds (r.batch a)) (r.start a) d.attempts) :=
      run_processBatch h.phase h.rowLocks (List.nodup_singleton _)
        (by simpa [RetryRound.batch] using hclaimable) (List.cons_ne_nil _ _) hsize
        (by simpa [RetryRound.batch] using hsnapshot)
        (by simpa [RetryRound.batch, Interface.Fits] using hloads.2)
    rw [retryRound_of_due hrow hdue]
    refine ⟨actions, d', hrun, hph, hlocks, ?_, ?_⟩
    · rw [hattempts, h.attempts]
    · rw [hposts, h.posts, h.attempts]
      rfl
  · rw [retryRound_not_due hrow hdue]
    exact ⟨[], d, rfl, h⟩

/-- The rounds change neither the event nor the subscriber of the row. -/
theorem retryRun_loadsWith {rounds : ℕ → RetryRound}
    (hrow : lookup DeliveryAttempt.id a.id s.attempts = some a)
    (hloads : ∀ j, LoadsWith keys (rounds j) a) (N : ℕ) :
    ∃ row, lookup DeliveryAttempt.id a.id (retryRun cfg a.id rounds s N).attempts = some row ∧
      ∀ j, LoadsWith keys (rounds j) row := by
  induction N with
  | zero => exact ⟨a, hrow, hloads⟩
  | succ N ih =>
    obtain ⟨row, hrow, hloads⟩ := ih
    rw [retryRun]
    by_cases hdue : due row = true
    · obtain ⟨_, row', hrow', ⟨_, hdone⟩ | ⟨_, rfl⟩⟩ := retryRound_due hrow hdue
      · refine ⟨row', hrow', fun j => ?_⟩
        unfold LoadsWith
        rw [hdone.messageId, hdone.subscriberId]
        exact hloads j
      · exact ⟨_, hrow', hloads⟩
    · rw [retryRound_not_due hrow hdue]
      exact ⟨row, hrow, hloads⟩

/-- The rounds of `retryRun` are a run of a worker that no other process interferes with. -/
theorem run_retryRun {rounds : ℕ → RetryRound} (h : Mirrors w d s)
    (hsize : 1 ≤ cfg.deliveryBatchSize)
    (hrow : lookup DeliveryAttempt.id a.id s.attempts = some a)
    (hloads : ∀ j, LoadsWith keys (rounds j) a) (N : ℕ) :
    ∃ actions d', run (aloneStep cfg keys w) d actions = some d' ∧
      Mirrors w d' (retryRun cfg a.id rounds s N) := by
  induction N with
  | zero => exact ⟨[], d, rfl, h⟩
  | succ N ih =>
    obtain ⟨actions, d₁, hrun, hmirrors⟩ := ih
    obtain ⟨row, hrow', hloads'⟩ := retryRun_loadsWith hrow hloads N
    obtain ⟨more, d', hmore, hmirrors'⟩ := run_retryRound hmirrors hsize hrow' (hloads' N)
    exact ⟨actions ++ more, d', run_append_eq_some.2 ⟨d₁, hrun, hmore⟩, hmirrors'⟩

end

/-! ## Concrete retries -/

def sampleRound (statusCode : ℕ) (body : PyStr) : RetryRound where
  wait := 0
  latency := 5
  event := ⟨py "m", py "e", .obj [], some (.obj []), .enriched, 0, some 0, none, 0⟩
  sub := ⟨⟨1⟩, py "http://a", py "s", true, 0, none⟩
  receives := rfl
  outcome := .response statusCode (some body)
  returns := rfl
  draw := 7

/-- Two answers 503, then answers 200. -/
def unavailableTwice (j : ℕ) : RetryRound :=
  if j < 2 then sampleRound 503 (py "busy") else sampleRound 200 []

/-- Two failures, and then a success. -/
theorem retry_run_iff_unavailableTwice :
    RetriedAsSpecified .default (sampleAttempt ⟨3⟩ ⟨1⟩) unavailableTwice
      (retryRun .default ⟨3⟩ unavailableTwice ⟨sampleTable, []⟩) := by
  refine (retry_run_iff .default sampleTable (sampleAttempt ⟨3⟩ ⟨1⟩) rfl rfl
    unavailableTwice).2 fun j hj => ?_
  have hcount : postCount .default (sampleAttempt ⟨3⟩ ⟨1⟩) unavailableTwice = 3 := by decide
  rw [hcount] at hj
  match j, hj with
  | 0, _ => exact ⟨Or.inr (by decide), by decide +kernel⟩
  | 1, _ => exact ⟨Or.inr (by decide), by decide +kernel⟩
  | 2, _ => exact ⟨Or.inl (by decide), by decide +kernel⟩

/-- The first failure, whose body has U+0000, leaves the row `in_flight`.
SOURCE: app/delivery/sender.py:70-72, app/delivery/worker.py:150-174 -/
theorem retry_run_stuck :
    ¬ ∀ (cfg : Settings) (t : List DeliveryAttempt) (a : DeliveryAttempt) (rounds : ℕ → RetryRound),
      1 ≤ cfg.deliveryMaxAttempts → cfg.deliveryMaxAttempts ≤ 1024 →
      lookup DeliveryAttempt.id a.id t = some a → due a = true →
      RetriedAsSpecified cfg a rounds (retryRun cfg a.id rounds ⟨t, []⟩) := by
  intro h
  have hspec := h .default sampleTable (sampleAttempt ⟨3⟩ ⟨1⟩) (fun _ => sampleRound 500 [0])
    (by decide) (by decide) rfl rfl
  obtain ⟨_, after, _, hafter, _, hfailed⟩ := hspec.failed 0 (by decide)
  have hstuck : (lookup DeliveryAttempt.id ⟨3⟩ (retryRun .default ⟨3⟩
      (fun _ => sampleRound 500 [0]) ⟨sampleTable, []⟩ 1).attempts).map DeliveryAttempt.status =
      some .inFlight := by decide +kernel
  have hstatus := congrArg (Option.map DeliveryAttempt.status) hafter
  rw [Option.map_some, hfailed.status] at hstatus
  exact absurd (hstuck.symm.trans hstatus) (by decide)

end EventPipeline.Analysis

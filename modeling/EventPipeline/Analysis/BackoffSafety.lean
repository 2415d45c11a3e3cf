import EventPipeline.Analysis.BatchFinalisation

/-!
# Safety of the backoff

The upper limit of a delay is `base * 2 ** n`, capped by the maximum. The code converts the
power to a float before it applies the cap, which raises from `n = 1024` on, so a worker that
is configured for more attempts than that loses the count of attempt 1024. For smaller numbers
the limit is what the code computes, and every delay that is drawn lies under it.
-/

set_option autoImplicit false

namespace EventPipeline.Analysis

open EventPipeline.Model EventPipeline.Program EventPipeline.Interface EventPipeline.Computation

/-! ## The result -/

section
variable {cfg : Settings} {a : DeliveryAttempt} {r : DeliveryResult} {now : Time}
  {k : Draw} {t : List DeliveryAttempt}

/-- A failed POST that is not the last one is written back when its retry has a date.
SOURCE: app/delivery/worker.py:146-174 -/
theorem writeBack_of_failed (hr : r.success = false)
    (hn : a.attemptCount + 1 < cfg.deliveryMaxAttempts) :
    writeBack cfg a r now k t = (retryAt cfg (a.attemptCount + 1) now k).bind fun nextAttemptAt =>
      if Json.storable (errorText r) = true then
        some (updateAttempt a.id
          (FinalUpdate.apply ⟨.failed, nextAttemptAt, some (errorText r)⟩ a r now) t)
      else none := by
  unfold writeBack finalUpdate
  rw [hr, if_neg Bool.false_ne_true, if_neg hn.not_ge, Option.bind_map]
  rfl

/-- The backoff after the POST of the snapshot `a`, which failed with `r` at time `now`, is
safe: whatever is drawn, the call returns a delay between 0 and the upper limit, which does
not fall with the attempt number and does not exceed the maximum, and the result is written
to the row. -/
structure BackoffSafe (cfg : Settings) (a : DeliveryAttempt) (r : DeliveryResult) (now : Time)
    (t : List DeliveryAttempt) : Prop where
  returns : ∀ k, ∃ delay h, backoffSeconds cfg (a.attemptCount + 1) k = some (.finite delay h) ∧
    0 ≤ delay ∧ delay ≤ upperLimit cfg (a.attemptCount + 1)
  capped : ∃ cap, backoffCap cfg (a.attemptCount + 1) = some cap ∧
    cap ≤ cfg.deliveryMaxDelaySeconds ∧
    ∀ m ≤ a.attemptCount + 1, ∃ cap', backoffCap cfg m = some cap' ∧ cap' ≤ cap
  written : ∀ k, ∃ nextAttemptAt, now ≤ nextAttemptAt ∧
    writeBack cfg a r now k t = some (updateAttempt a.id
      (FinalUpdate.apply ⟨.failed, nextAttemptAt, some (errorText r)⟩ a r now) t)

/-- Below the limits the backoff is safe. SOURCE: app/delivery/worker.py:29-33,150-174 -/
theorem backoffSafe_of_fits (hbase : cfg.deliveryBaseDelaySeconds.isNaN = false)
    (hmax : cfg.deliveryMaxDelaySeconds.isNaN = false) (hr : r.success = false)
    (hn : a.attemptCount + 1 < cfg.deliveryMaxAttempts) (hlt : a.attemptCount + 1 < 1024)
    (hstorable : Json.storable (errorText r) = true)
    (hfits : RetryFits cfg (a.attemptCount + 1) now) : BackoffSafe cfg a r now t := by
  have hdated := (forall_retryDated_iff hbase).2 ⟨hlt, hfits⟩
  obtain ⟨c, hlimit, hlast⟩ := hfits
  obtain ⟨h, hcap⟩ := backoffCap_eq_finite hbase hlt hlimit (lt_of_retryFits hlast)
  refine ⟨fun k => ?_, ⟨_, hcap, backoffCap_le_max hbase hmax hlt hcap,
    fun m hm => backoffCap_mono hbase hlt hcap hm⟩, fun k => ?_⟩
  · obtain ⟨hd, heq⟩ := backoffSeconds_of_finite (k := k) hcap
    refine ⟨drawnDelay c k, hd, heq, hd.1.nonneg, ?_⟩
    rw [hlimit]
    exact WithTop.coe_le_coe.2 (drawnDelay_le h.1)
  · obtain ⟨nextAttemptAt, hat⟩ := Option.isSome_iff_exists.1 (retryAt_isSome_iff.2 (hdated k))
    refine ⟨nextAttemptAt, (retryAt_le hat).1, ?_⟩
    rw [writeBack_of_failed hr hn, hat, Option.bind_some, if_pos hstorable]

/-- With at most 1024 attempts and a maximum of `L` seconds the backoff is safe, for a text that
can be stored, until `L` seconds before the end of the dates. -/
theorem backoffSafe_of_le {L : ℕ} (hbase : cfg.deliveryBaseDelaySeconds.isNaN = false)
    (hmax : cfg.deliveryMaxDelaySeconds.isNaN = false) (hr : r.success = false)
    (hn : a.attemptCount + 1 < cfg.deliveryMaxAttempts) (hM : cfg.deliveryMaxAttempts ≤ 1024)
    (hstorable : Json.storable (errorText r) = true) (hL : L < 2 ^ 53)
    (hle : cfg.deliveryMaxDelaySeconds.value ≤ ((L : ℚ) : WithTop ℚ))
    (hnow : now + seconds L < datetimeEnd) : BackoffSafe cfg a r now t :=
  backoffSafe_of_fits hbase hmax hr hn (hn.trans_le hM) hstorable (retryFits_of_le hL hle hnow)

/-- The backoff after a failed POST that is not the last one is safe if and only if its attempt
number is below 1024, the text of the failure can be stored and no retry is dated after the
year 9999. SOURCE: app/delivery/worker.py:29-33,126-174 -/
theorem backoffSafe_iff (cfg : Settings) (a : DeliveryAttempt) (r : DeliveryResult)
    (now : Time) (t : List DeliveryAttempt)
    (hbase : 0 < cfg.deliveryBaseDelaySeconds) (hmax : 0 < cfg.deliveryMaxDelaySeconds)
    (hr : r.success = false) (hn : a.attemptCount + 1 < cfg.deliveryMaxAttempts) :
    BackoffSafe cfg a r now t ↔
      a.attemptCount + 1 < 1024 ∧ Json.storable (errorText r) = true ∧
        RetryFits cfg (a.attemptCount + 1) now := by
  constructor
  · intro hsafe
    have hwritten : ∀ k, RetryDated cfg (a.attemptCount + 1) now k ∧
        Json.storable (errorText r) = true := by
      intro k
      obtain ⟨_, _, hw⟩ := hsafe.written k
      rw [writeBack_of_failed hr hn] at hw
      obtain ⟨_, hat, hif⟩ := Option.bind_eq_some_iff.1 hw
      refine ⟨(of_retryAt hat).1, ?_⟩
      by_contra hstorable
      rw [if_neg hstorable] at hif
      cases hif
    obtain ⟨hlt, hfits⟩ := (forall_retryDated_iff hbase.2.1).1 fun k => (hwritten k).1
    exact ⟨hlt, (hwritten 0).2, hfits⟩
  · rintro ⟨hlt, hstorable, hfits⟩
    exact backoffSafe_of_fits hbase.2.1 hmax.2.1 hr hn hlt hstorable hfits

end

def newYear2025 : Time := seconds (739251 * 86400)

/-- A row with `attemptCount` attempts made. -/
def claimedAfter (attemptCount : ℕ) : DeliveryAttempt :=
  { sampleAttempt ⟨3⟩ ⟨1⟩ with status := .inFlight, attemptCount := attemptCount }

def serverError : DeliveryResult := ⟨false, some 500, some (py "error")⟩

/-- The defaults, with another limit on the attempts. -/
def delaysWithLimit (M : ℕ) : Settings :=
  { Settings.default with deliveryMaxAttempts := M }

/-- The first failure under the default settings. -/
theorem backoffSafe_iff_firstFailure :
    BackoffSafe .default (claimedAfter 0) serverError newYear2025 [claimedAfter 0] :=
  (backoffSafe_iff .default (claimedAfter 0) serverError newYear2025 [claimedAfter 0]
    (Binary64.ofRat_lt_ofRat isFinite_zero isFinite_one (by norm_num))
    (Binary64.ofRat_lt_ofRat isFinite_zero isFinite_300 (by norm_num)) rfl (by decide)).2
    ⟨by decide, by decide, retryFits_of_le (L := 300) (by norm_num)
      (Binary64.value_ofRat isFinite_300).le (by decide)⟩

/-- With a limit of 2000 attempts, the one after 1023 failures raises, although the maximum
delay is 300 s. SOURCE: app/delivery/worker.py:32 -/
theorem backoff_not_safe :
    ¬ ∀ (cfg : Settings) (a : DeliveryAttempt) (r : DeliveryResult) (now : Time)
      (t : List DeliveryAttempt), 0 < cfg.deliveryBaseDelaySeconds →
      0 < cfg.deliveryMaxDelaySeconds → r.success = false →
      a.attemptCount + 1 < cfg.deliveryMaxAttempts → BackoffSafe cfg a r now t := by
  intro h
  have hsafe := h (delaysWithLimit 2000) (claimedAfter 1023) serverError newYear2025
    [claimedAfter 1023] (Binary64.ofRat_lt_ofRat isFinite_zero isFinite_one (by norm_num))
    (Binary64.ofRat_lt_ofRat isFinite_zero isFinite_300 (by norm_num)) rfl (by decide)
  obtain ⟨cap, hcap, _⟩ := hsafe.capped
  rw [backoffCap_of_le (by decide)] at hcap
  cases hcap

end EventPipeline.Analysis

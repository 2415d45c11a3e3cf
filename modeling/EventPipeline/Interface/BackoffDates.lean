import EventPipeline.Program.Backoff

/-!
# The delays and dates of the backoff

What `retryAt` computes, without rounding as far as it is exact: the upper limit of a delay is
`base * 2 ** n`, capped by the maximum, a delay is drawn under it, and a retry has a date when
the delay does not lead past the year 9999.
-/

set_option autoImplicit false

namespace EventPipeline.Interface

open EventPipeline.Model EventPipeline.Program EventPipeline.Computation

/-! ## The microseconds of a delay -/

section
variable {x y : ℚ}

/-- The fraction has less than a second of microseconds. -/
theorem fraction_lt (x : ℚ) : (x - ⌊x⌋₊) * 1000000 < 1000000 := by
  have := Nat.lt_floor_add_one x
  linarith

/-- The numbers of microseconds of a fraction are on the grid. -/
theorem isGrid_natCast_of_le {n : ℕ} (h : n ≤ 1000000) : IsGrid n :=
  isGrid_natCast (h.trans_lt (by norm_num))

/-- The fraction counts for at most `n` microseconds, if it is at most that. -/
theorem roundEven_fraction_le {n : ℕ} (hn : n ≤ 1000000) (h : (x - ⌊x⌋₊) * 1000000 ≤ n) :
    roundEven (nearest ((x - ⌊x⌋₊) * 1000000)) ≤ n :=
  roundEven_le (nearest_le (isGrid_natCast_of_le hn) h)

/-- The whole seconds count in full. -/
theorem seconds_floor_le (x : ℚ) : seconds ⌊x⌋₊ ≤ microseconds x := Nat.le_add_right _ _

/-- The fraction counts for a second at most. -/
theorem microseconds_le_seconds (x : ℚ) : microseconds x ≤ seconds (⌊x⌋₊ + 1) := by
  have hfraction : roundEven (nearest ((x - ⌊x⌋₊) * 1000000)) ≤ 1000000 :=
    roundEven_fraction_le le_rfl (by exact_mod_cast (fraction_lt x).le)
  calc microseconds x ≤ seconds ⌊x⌋₊ + 1000000 := Nat.add_le_add_left hfraction _
    _ = seconds (⌊x⌋₊ + 1) := (Nat.succ_mul _ _).symm

/-- A longer delay does not have fewer microseconds. -/
theorem microseconds_mono (h : x ≤ y) : microseconds x ≤ microseconds y := by
  obtain hlt | heq := (Nat.floor_mono h).lt_or_eq
  · calc microseconds x ≤ seconds (⌊x⌋₊ + 1) := microseconds_le_seconds x
      _ ≤ seconds ⌊y⌋₊ := Nat.mul_le_mul_right _ hlt
      _ ≤ microseconds y := seconds_floor_le y
  · unfold microseconds
    rw [heq]
    have hfraction : (x - ⌊y⌋₊) * 1000000 ≤ (y - ⌊y⌋₊) * 1000000 := by linarith
    exact Nat.add_le_add_left (roundEven_mono (nearest_mono hfraction)) _

/-- A delay of at most `n` microseconds. -/
theorem microseconds_le {n : ℕ} (hx : 0 ≤ x) (h : x * 1000000 ≤ n) : microseconds x ≤ n := by
  have hfloor : seconds ⌊x⌋₊ ≤ n := by
    have : (⌊x⌋₊ : ℚ) * 1000000 ≤ n :=
      (mul_le_mul_of_nonneg_right (Nat.floor_le hx) (by norm_num)).trans h
    unfold seconds
    exact_mod_cast this
  obtain ⟨rest, rfl⟩ := Nat.exists_eq_add_of_le hfloor
  have hrest : (x - ⌊x⌋₊) * 1000000 ≤ rest := by
    unfold seconds at h
    push_cast at h
    linarith
  refine Nat.add_le_add_left ?_ _
  obtain hle | hgt := le_or_gt rest 1000000
  · exact roundEven_fraction_le hle hrest
  · exact (roundEven_fraction_le le_rfl (by exact_mod_cast (fraction_lt x).le)).trans hgt.le

end

/-! ## The upper limit -/

section
variable {cfg : Settings} {n m : ℕ} {now : Time} {k : Draw}

/-- The upper limit of the delay after failure number `n`, without rounding. -/
def upperLimit (cfg : Settings) (n : ℕ) : WithTop ℚ :=
  min (cfg.deliveryBaseDelaySeconds.value.map (· * 2 ^ n)) cfg.deliveryMaxDelaySeconds.value

/-- A larger power scales to a larger value. -/
theorem scale_mono {v : WithTop ℚ} (hv : 0 ≤ v) (h : m ≤ n) :
    v.map (· * 2 ^ m) ≤ v.map (· * 2 ^ n) := by
  cases v with
  | top => exact le_rfl
  | coe x =>
    have hpow : (2 : ℚ) ^ m ≤ 2 ^ n := pow_le_pow_right₀ (by norm_num) h
    exact WithTop.coe_le_coe.2 (mul_le_mul_of_nonneg_left hpow (WithTop.coe_nonneg.1 hv))

/-- The upper limit is not negative. -/
theorem upperLimit_nonneg : 0 ≤ upperLimit cfg n := by
  refine le_min ?_ (Binary64.value_nonneg _)
  have hbase := Binary64.value_nonneg cfg.deliveryBaseDelaySeconds
  cases hv : cfg.deliveryBaseDelaySeconds.value with
  | top => exact le_top
  | coe x =>
    rw [hv] at hbase
    exact WithTop.coe_nonneg.2 (mul_nonneg (WithTop.coe_nonneg.1 hbase) (by positivity))

/-- The upper limit does not fall with the attempt number. -/
theorem upperLimit_mono (h : m ≤ n) : upperLimit cfg m ≤ upperLimit cfg n :=
  min_le_min_right _ (scale_mono (Binary64.value_nonneg _) h)

/-- The power is too large for a float, although the cap may be small.
SOURCE: app/delivery/worker.py:32 -/
theorem backoffCap_of_le (hn : 1024 ≤ n) : backoffCap cfg n = none := by
  rw [backoffCap, Binary64.mulNat?_two_pow_of_le _ hn, Option.map_none]

/-- Without a base there is no delay either: the product with `nan` is `nan`. -/
theorem backoffCap_of_nan (hbase : cfg.deliveryBaseDelaySeconds.isNaN = true) {cap : Binary64}
    (hcap : backoffCap cfg n = some cap) : cap = .nan := by
  obtain ⟨x, hx, rfl⟩ := Option.map_eq_some_iff.1 hcap
  obtain ⟨y, _, rfl⟩ := Option.map_eq_some_iff.1 hx
  cases hv : cfg.deliveryBaseDelaySeconds with
  | nan => exact Binary64.nan_min _
  | _ =>
    rw [hv] at hbase
    cases hbase

section
variable (hbase : cfg.deliveryBaseDelaySeconds.isNaN = false)
include hbase

/-- The code computes the upper limit, as a float. SOURCE: app/delivery/worker.py:31-32 -/
theorem backoffCap_spec (hn : n < 1024) :
    ∃ cap, backoffCap cfg n = some cap ∧ cap.isNaN = false ∧
      cap.value = Binary64.clip (upperLimit cfg n) := by
  obtain ⟨x, hx, hnan, hvalue⟩ := Binary64.mulNat?_two_pow_of_lt hbase hn
  obtain ⟨hnan', hvalue'⟩ := Binary64.min_spec hnan cfg.deliveryMaxDelaySeconds
  refine ⟨x.min cfg.deliveryMaxDelaySeconds, ?_, hnan', ?_⟩
  · rw [backoffCap, hx, Option.map_some]
  · rw [hvalue', hvalue, upperLimit, Binary64.clip_min, Binary64.clip_value]

/-- A cap that is computed is the upper limit, as a float. -/
theorem of_backoffCap (hn : n < 1024) {cap : Binary64} (hcap : backoffCap cfg n = some cap) :
    cap.isNaN = false ∧ cap.value = Binary64.clip (upperLimit cfg n) := by
  obtain ⟨cap', hcap', hspec⟩ := backoffCap_spec hbase hn
  obtain rfl := Option.some.inj (hcap.symm.trans hcap')
  exact hspec

/-- The cap does not exceed the maximum. SOURCE: app/delivery/worker.py:32 -/
theorem backoffCap_le_max (hmax : cfg.deliveryMaxDelaySeconds.isNaN = false) (hn : n < 1024)
    {cap : Binary64} (hcap : backoffCap cfg n = some cap) : cap ≤ cfg.deliveryMaxDelaySeconds := by
  obtain ⟨hnan, hvalue⟩ := of_backoffCap hbase hn hcap
  refine ⟨hnan, hmax, ?_⟩
  rw [hvalue, ← Binary64.clip_value cfg.deliveryMaxDelaySeconds]
  exact Binary64.clip_mono (min_le_right _ _)

/-- The cap does not fall with the attempt number. -/
theorem backoffCap_mono (hn : n < 1024) {cap : Binary64} (hcap : backoffCap cfg n = some cap)
    (h : m ≤ n) : ∃ cap', backoffCap cfg m = some cap' ∧ cap' ≤ cap := by
  obtain ⟨hnan, hvalue⟩ := of_backoffCap hbase hn hcap
  obtain ⟨cap', hcap', hnan', hvalue'⟩ := backoffCap_spec hbase (h.trans_lt hn)
  refine ⟨cap', hcap', hnan', hnan, ?_⟩
  rw [hvalue, hvalue']
  exact Binary64.clip_mono (upperLimit_mono h)

/-- Where the limit fits a float, it is the cap. -/
theorem backoffCap_eq_finite (hn : n < 1024) {c : ℚ} (hlimit : upperLimit cfg n = c)
    (hc : c < 2 ^ 1024) : ∃ h, backoffCap cfg n = some (.finite c h) := by
  obtain ⟨cap, hcap, _, hvalue⟩ := backoffCap_spec hbase hn
  rw [hlimit, Binary64.clip_coe hc] at hvalue
  obtain ⟨h, rfl⟩ := Binary64.eq_finite_of_value hvalue
  exact ⟨h, hcap⟩

/-- A finite cap is the upper limit. -/
theorem upperLimit_of_backoffCap (hn : n < 1024) {c : ℚ} {hc : IsFinite c}
    (hcap : backoffCap cfg n = some (.finite c hc)) : upperLimit cfg n = c :=
  Binary64.of_clip_eq_coe (of_backoffCap hbase hn hcap).2.symm

end

/-! ## The delay -/

/-- The delay that is drawn under the limit `c`. -/
def drawnDelay (c : ℚ) (k : Draw) : ℚ := nearest (c * (k.val * 2 ^ (-53 : ℤ)))

/-- A draw is at most 1. -/
theorem draw_le_one (k : Draw) : (k.val : ℚ) * 2 ^ (-53 : ℤ) ≤ 1 := by
  have hk : (k.val : ℚ) ≤ 2 ^ 53 := by exact_mod_cast k.isLt.le
  calc (k.val : ℚ) * 2 ^ (-53 : ℤ) ≤ 2 ^ 53 * 2 ^ (-53 : ℤ) :=
        mul_le_mul_of_nonneg_right hk (two_zpow_pos _).le
    _ = 1 := by norm_num

/-- A drawn delay does not exceed its limit, rounding included. -/
theorem drawnDelay_le {c : ℚ} (hc : IsGrid c) : drawnDelay c k ≤ c :=
  nearest_le hc (mul_le_of_le_one_right hc.nonneg (draw_le_one k))

/-- Under a finite cap a finite delay is drawn. SOURCE: app/delivery/worker.py:33 -/
theorem uniform_finite {c : ℚ} (hc : IsFinite c) :
    ∃ h, uniform (.finite c hc) k = .finite (drawnDelay c k) h :=
  ⟨_, Binary64.ofRat_of_lt ((drawnDelay_le hc.1).trans_lt hc.2)⟩

/-- A delay under a finite cap. -/
theorem backoffSeconds_of_finite {c : ℚ} {hc : IsFinite c}
    (h : backoffCap cfg n = some (.finite c hc)) :
    ∃ hd, backoffSeconds cfg n k = some (.finite (drawnDelay c k) hd) := by
  obtain ⟨hd, heq⟩ := uniform_finite (k := k) hc
  exact ⟨hd, by rw [backoffSeconds, h, Option.map_some, heq]⟩

/-- An infinite limit gives an infinite delay, or none where 0 is drawn. -/
theorem timedeltaSeconds_uniform_inf : timedeltaSeconds (uniform .inf k) = none := by
  show timedeltaSeconds (if (k.val : ℚ) * 2 ^ (-53 : ℤ) = 0 then .nan else .inf) = none
  split <;> rfl

/-! ## The date of the retry -/

/-- The calendar ends before the longest `timedelta`. -/
theorem datetimeEnd_le_timedeltaEnd : datetimeEnd ≤ timedeltaEnd := by decide

/-- A `timedelta` that is too long leads to a date that is too late. -/
theorem bind_timedeltaSeconds {x : ℚ} (hx : IsFinite x) :
    (timedeltaSeconds (.finite x hx)).bind (addDelay now) =
      if now + microseconds x < datetimeEnd then some (now + microseconds x) else none := by
  rw [timedeltaSeconds]
  split
  · rw [Option.bind_some, addDelay]
  · rename_i hlong
    have hlate : datetimeEnd ≤ now + microseconds x :=
      datetimeEnd_le_timedeltaEnd.trans ((not_lt.1 hlong).trans (Nat.le_add_left _ _))
    rw [Option.bind_none, if_neg hlate.not_gt]

/-- The date of a retry under a finite cap. SOURCE: app/delivery/worker.py:150-151 -/
theorem retryAt_of_finite {c : ℚ} {hc : IsFinite c} (h : backoffCap cfg n = some (.finite c hc)) :
    retryAt cfg n now k =
      if now + microseconds (drawnDelay c k) < datetimeEnd then
        some (now + microseconds (drawnDelay c k))
      else none := by
  obtain ⟨hd, heq⟩ := backoffSeconds_of_finite (k := k) h
  rw [retryAt, heq, Option.bind_some, bind_timedeltaSeconds hd]

/-- A date that was computed under a finite cap is the one its delay leads to. -/
theorem eq_of_retryAt {c : ℚ} {hc : IsFinite c} (h : backoffCap cfg n = some (.finite c hc))
    {nextAttemptAt : Time} (hat : retryAt cfg n now k = some nextAttemptAt) :
    now + microseconds (drawnDelay c k) < datetimeEnd ∧
      nextAttemptAt = now + microseconds (drawnDelay c k) := by
  rw [retryAt_of_finite h] at hat
  split at hat
  · exact ⟨‹_›, (Option.some.inj hat).symm⟩
  · cases hat

/-- A retry has a date only where the base is a number and the cap is finite. -/
theorem backoffCap_of_retryAt {nextAttemptAt : Time}
    (h : retryAt cfg n now k = some nextAttemptAt) :
    n < 1024 ∧ cfg.deliveryBaseDelaySeconds.isNaN = false ∧
      ∃ c hc, backoffCap cfg n = some (.finite c hc) := by
  obtain ⟨_, hspan, _⟩ := Option.bind_eq_some_iff.1 h
  obtain ⟨_, hdelay, hspan⟩ := Option.bind_eq_some_iff.1 hspan
  obtain ⟨cap, hcap, rfl⟩ := Option.map_eq_some_iff.1 hdelay
  refine ⟨?_, ?_, ?_⟩
  · by_contra hn
    rw [backoffCap_of_le (not_lt.1 hn)] at hcap
    cases hcap
  · by_contra hbase
    obtain rfl := backoffCap_of_nan (Bool.eq_true_of_not_eq_false hbase) hcap
    cases hspan
  · cases cap with
    | finite c hc => exact ⟨c, hc, hcap⟩
    | inf =>
      rw [timedeltaSeconds_uniform_inf] at hspan
      cases hspan
    | nan => cases hspan

/-- The retry after failure number `n` at time `now`, with the draw `k`, has a date: the power
fits a float, the base is a number, the upper limit fits a float, and the delay that is drawn
under it ends before the year 10000. -/
structure RetryDated (cfg : Settings) (n : ℕ) (now : Time) (k : Draw) : Prop where
  exponent : n < 1024
  base : cfg.deliveryBaseDelaySeconds.isNaN = false
  date : ∃ c : ℚ, upperLimit cfg n = c ∧ c < 2 ^ 1024 ∧
    now + microseconds (drawnDelay c k) < datetimeEnd

/-- The date of a retry is the one that its delay leads to. -/
theorem retryAt_of_dated (hn : n < 1024) (hbase : cfg.deliveryBaseDelaySeconds.isNaN = false)
    {c : ℚ} (hlimit : upperLimit cfg n = c) (hc : c < 2 ^ 1024)
    (hdate : now + microseconds (drawnDelay c k) < datetimeEnd) :
    retryAt cfg n now k = some (now + microseconds (drawnDelay c k)) := by
  obtain ⟨h, hcap⟩ := backoffCap_eq_finite hbase hn hlimit hc
  rw [retryAt_of_finite hcap, if_pos hdate]

/-- What a date that was computed says. SOURCE: app/delivery/worker.py:29-33,150-151 -/
theorem of_retryAt {nextAttemptAt : Time} (h : retryAt cfg n now k = some nextAttemptAt) :
    RetryDated cfg n now k ∧ ∃ c : ℚ, upperLimit cfg n = c ∧ IsFinite c ∧
      nextAttemptAt = now + microseconds (drawnDelay c k) := by
  obtain ⟨hn, hbase, c, hc, hcap⟩ := backoffCap_of_retryAt h
  obtain ⟨hdate, heq⟩ := eq_of_retryAt hcap h
  have hlimit := upperLimit_of_backoffCap hbase hn hcap
  exact ⟨⟨hn, hbase, c, hlimit, hc.2, hdate⟩, c, hlimit, hc, heq⟩

/-- The code computes a date exactly for a retry that has one.
SOURCE: app/delivery/worker.py:29-33,150-151 -/
theorem retryAt_isSome_iff : (retryAt cfg n now k).isSome = true ↔ RetryDated cfg n now k := by
  constructor
  · intro h
    obtain ⟨_, hat⟩ := Option.isSome_iff_exists.1 h
    exact (of_retryAt hat).1
  · rintro ⟨hn, hbase, c, hlimit, hc, hdate⟩
    rw [retryAt_of_dated hn hbase hlimit hc hdate]
    rfl

instance (cfg : Settings) (n : ℕ) (now : Time) (k : Draw) : Decidable (RetryDated cfg n now k) :=
  decidable_of_iff _ retryAt_isSome_iff

/-- The date of a retry lies after the failure, by at most the upper limit. -/
theorem retryAt_le {nextAttemptAt : Time} (h : retryAt cfg n now k = some nextAttemptAt) :
    now ≤ nextAttemptAt ∧
      ∃ c : ℚ, upperLimit cfg n = c ∧ nextAttemptAt ≤ now + microseconds c := by
  obtain ⟨_, c, hlimit, hc, rfl⟩ := of_retryAt h
  exact ⟨Nat.le_add_right _ _, c, hlimit,
    Nat.add_le_add_left (microseconds_mono (drawnDelay_le hc.1)) now⟩

/-- A date that was computed is one of the calendar. SOURCE: app/delivery/worker.py:151 -/
theorem retryAt_lt {nextAttemptAt : Time} (h : retryAt cfg n now k = some nextAttemptAt) :
    nextAttemptAt < datetimeEnd := by
  obtain ⟨hdated, c, hlimit, _, rfl⟩ := of_retryAt h
  obtain ⟨c', hlimit', _, hdate⟩ := hdated.date
  obtain rfl : c = c' := WithTop.coe_injective (hlimit.symm.trans hlimit')
  exact hdate

/-- The delay after failure number `n`, where its upper limit is finite. -/
def retryDelay (cfg : Settings) (n : ℕ) (k : Draw) : Time :=
  microseconds (drawnDelay ((upperLimit cfg n).untopD 0) k)

/-- The date of a retry. SOURCE: app/delivery/worker.py:150-151 -/
theorem eq_add_retryDelay {nextAttemptAt : Time} (h : retryAt cfg n now k = some nextAttemptAt) :
    nextAttemptAt = now + retryDelay cfg n k := by
  obtain ⟨_, c, hlimit, _, rfl⟩ := of_retryAt h
  rw [retryDelay, hlimit, WithTop.untopD_coe]

/-- No retry waits longer than a finite maximum. -/
theorem retryAt_le_max {nextAttemptAt : Time} (h : retryAt cfg n now k = some nextAttemptAt)
    {c : ℚ} (hmax : cfg.deliveryMaxDelaySeconds.value = c) :
    nextAttemptAt ≤ now + microseconds c := by
  obtain ⟨_, c', hlimit, hle⟩ := retryAt_le h
  have hcap : c' ≤ c := by
    rw [← WithTop.coe_le_coe, ← hlimit, ← hmax]
    exact min_le_right _ _
  exact hle.trans (Nat.add_le_add_left (microseconds_mono hcap) now)

/-! ## Every draw -/

/-- The last date that can be drawn, one part in `2 ** 53` before the upper limit, is in the
year 9999 or earlier. -/
def RetryFits (cfg : Settings) (n : ℕ) (now : Time) : Prop :=
  ∃ c : ℚ, upperLimit cfg n = c ∧
    now + microseconds (nearest (c * (1 - 2 ^ (-53 : ℤ)))) < datetimeEnd

/-- A limit that fits the dates fits the floats. -/
theorem lt_of_retryFits {c : ℚ}
    (h : now + microseconds (nearest (c * (1 - 2 ^ (-53 : ℤ)))) < datetimeEnd) : c < 2 ^ 1024 := by
  by_contra hc
  have hlarge : (2 : ℚ) ^ 60 ≤ c * (1 - 2 ^ (-53 : ℤ)) := by
    have hhalf : (1 / 2 : ℚ) ≤ 1 - 2 ^ (-53 : ℤ) := by norm_num
    calc (2 : ℚ) ^ 60 = 2 ^ 61 * (1 / 2) := by norm_num
      _ ≤ c * (1 - 2 ^ (-53 : ℤ)) := mul_le_mul
        ((pow_le_pow_right₀ (by norm_num) (by norm_num)).trans (not_lt.1 hc)) hhalf (by norm_num)
        ((by positivity : (0 : ℚ) ≤ 2 ^ 1024).trans (not_lt.1 hc))
  have hfloor : 2 ^ 60 ≤ ⌊nearest (c * (1 - 2 ^ (-53 : ℤ)))⌋₊ :=
    Nat.le_floor (by exact_mod_cast le_nearest (isGrid_two_pow 60) hlarge)
  have hend : datetimeEnd < seconds (2 ^ 60) := by decide
  have hlong : seconds (2 ^ 60) ≤ microseconds (nearest (c * (1 - 2 ^ (-53 : ℤ)))) :=
    (Nat.mul_le_mul_right _ hfloor).trans (seconds_floor_le _)
  exact absurd h (hend.le.trans (hlong.trans (Nat.le_add_left _ _))).not_gt

/-- A maximum of at most `L` seconds leads past the last date only in the last `L` seconds. -/
theorem retryFits_of_le {L : ℕ} (hL : L < 2 ^ 53)
    (h : cfg.deliveryMaxDelaySeconds.value ≤ ((L : ℚ) : WithTop ℚ))
    (hnow : now + seconds L < datetimeEnd) : RetryFits cfg n now := by
  have hlimit : upperLimit cfg n ≤ ((L : ℚ) : WithTop ℚ) := (min_le_right _ _).trans h
  obtain ⟨c, hc, hcL⟩ := WithTop.le_coe_iff.1 hlimit
  refine ⟨c, hc, ?_⟩
  have hc0 : 0 ≤ c := by
    have hnonneg : 0 ≤ upperLimit cfg n := upperLimit_nonneg
    rw [hc] at hnonneg
    exact WithTop.coe_nonneg.1 hnonneg
  have hle : nearest (c * (1 - 2 ^ (-53 : ℤ))) ≤ L :=
    nearest_le (isGrid_natCast hL) ((mul_le_of_le_one_right hc0 (by norm_num)).trans hcL)
  have hmicro : microseconds (nearest (c * (1 - 2 ^ (-53 : ℤ)))) ≤ seconds L := by
    refine microseconds_le (nearest_nonneg _) ?_
    calc nearest (c * (1 - 2 ^ (-53 : ℤ))) * 1000000 ≤ L * 1000000 :=
          mul_le_mul_of_nonneg_right hle (by norm_num)
      _ = (seconds L : ℕ) := by unfold seconds; push_cast; rfl
  exact (Nat.add_le_add_left hmicro now).trans_lt hnow

/-- Every draw is at most the last one. -/
theorem drawnDelay_le_last {c : ℚ} (hc : 0 ≤ c) :
    drawnDelay c k ≤ nearest (c * (1 - 2 ^ (-53 : ℤ))) := by
  refine nearest_mono (mul_le_mul_of_nonneg_left ?_ hc)
  have hk : (k.val : ℚ) ≤ 2 ^ 53 - 1 := by
    have : (k.val : ℚ) + 1 ≤ 2 ^ 53 := by exact_mod_cast k.isLt
    linarith
  calc (k.val : ℚ) * 2 ^ (-53 : ℤ) ≤ (2 ^ 53 - 1) * 2 ^ (-53 : ℤ) :=
        mul_le_mul_of_nonneg_right hk (two_zpow_pos _).le
    _ = 1 - 2 ^ (-53 : ℤ) := by norm_num

/-- The last draw gives the longest delay. -/
theorem exists_lastDraw (c : ℚ) :
    ∃ k, drawnDelay c k = nearest (c * (1 - 2 ^ (-53 : ℤ))) := by
  refine ⟨⟨2 ^ 53 - 1, by norm_num⟩, ?_⟩
  unfold drawnDelay
  congr 2
  norm_num

/-- Every draw gives a date exactly when the limit does not lead past the last one. -/
theorem forall_retryDated_iff (hbase : cfg.deliveryBaseDelaySeconds.isNaN = false) :
    (∀ k, RetryDated cfg n now k) ↔ n < 1024 ∧ RetryFits cfg n now := by
  constructor
  · intro hdated
    obtain ⟨hn, _, c, hlimit, _, _⟩ := hdated 0
    obtain ⟨k, hk⟩ := exists_lastDraw c
    obtain ⟨_, _, c', hlimit', _, hlast⟩ := hdated k
    obtain rfl : c = c' := WithTop.coe_injective (hlimit.symm.trans hlimit')
    exact ⟨hn, c, hlimit, hk ▸ hlast⟩
  · rintro ⟨hn, c, hlimit, hlast⟩ k
    have hc : 0 ≤ c := WithTop.coe_nonneg.1 (hlimit ▸ upperLimit_nonneg)
    have hle : microseconds (drawnDelay c k) ≤ microseconds (nearest (c * (1 - 2 ^ (-53 : ℤ)))) :=
      microseconds_mono (drawnDelay_le_last hc)
    exact ⟨hn, hbase, c, hlimit, lt_of_retryFits hlast,
      (Nat.add_le_add_left hle now).trans_lt hlast⟩

/-- Delays for which a retry can always be dated: the powers fit a float, the base is a number,
and the maximum is a finite one. -/
structure FiniteDelays (cfg : Settings) : Prop where
  attempts : cfg.deliveryMaxAttempts ≤ 1024
  base : cfg.deliveryBaseDelaySeconds.isNaN = false
  max : ∃ c : ℚ, cfg.deliveryMaxDelaySeconds.value = c

/-- Where 0 is drawn the retry is due at once. -/
theorem FiniteDelays.retryDated_zero (h : FiniteDelays cfg) (hn : n < cfg.deliveryMaxAttempts)
    (hnow : now < datetimeEnd) : RetryDated cfg n now 0 := by
  obtain ⟨c, hc⟩ := h.max
  obtain ⟨hfinite, _⟩ := Binary64.eq_finite_of_value hc
  have hle : upperLimit cfg n ≤ (c : WithTop ℚ) := hc ▸ min_le_right _ _
  obtain ⟨c', hc', hle'⟩ := WithTop.le_coe_iff.1 hle
  have hzero : microseconds (drawnDelay c' 0) = 0 := by
    simp [drawnDelay, microseconds, seconds, nearest_of_nonpos, roundEven]
  refine ⟨hn.trans_le h.attempts, h.base, c', hc', hle'.trans_lt hfinite.2, ?_⟩
  rw [hzero]
  exact hnow

/-! ## The default delays -/

/-- 0 is a number of the format. -/
theorem isFinite_zero : IsFinite 0 := by exact_mod_cast isFinite_natCast (n := 0) (by norm_num)

/-- 1 is a number of the format. -/
theorem isFinite_one : IsFinite 1 := by exact_mod_cast isFinite_natCast (n := 1) (by norm_num)

/-- 300 is a number of the format. -/
theorem isFinite_300 : IsFinite 300 := by exact_mod_cast isFinite_natCast (n := 300) (by norm_num)

/-- The default delays are finite. SOURCE: app/config.py:23-27 -/
theorem finiteDelays_default : FiniteDelays .default where
  attempts := by decide
  base := Binary64.isNaN_ofRat 1
  max := ⟨300, Binary64.value_ofRat isFinite_300⟩

end

end EventPipeline.Interface

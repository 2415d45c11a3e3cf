import EventPipeline.Model.Settings

/-!
# The backoff

`_backoff_seconds` and the date that `_deliver_attempt` computes with it. The delays are the
floats that the settings have, and dates end in the year 9999; where the code raises
`OverflowError` or `ValueError` the functions return `none`.
-/

set_option autoImplicit false

namespace EventPipeline.Program

open EventPipeline.Model EventPipeline.Computation

/-! ## `random` and `datetime` -/

/-- What `random.random()` draws, in units of `2 ** -53`. -/
abbrev Draw := Fin (2 ^ 53)

instance draw_neZero : NeZero (2 ^ 53 : ℕ) := ⟨by norm_num⟩

/-- A draw is a number of the format. -/
theorem isFinite_random (k : Draw) : IsFinite (k.val * 2 ^ (-53 : ℤ)) := by
  refine ⟨⟨k.val, -53, k.isLt, by norm_num, rfl⟩, ?_⟩
  have hk : (k.val : ℚ) < 2 ^ 53 := by exact_mod_cast k.isLt
  calc (k.val : ℚ) * 2 ^ (-53 : ℤ) < 2 ^ 53 * 2 ^ (-53 : ℤ) :=
        mul_lt_mul_of_pos_right hk (two_zpow_pos _)
    _ = 1 := by norm_num
    _ ≤ 2 ^ 1024 := one_le_pow₀ (by norm_num)

/-- `random.random()` is a multiple of `2 ** -53` below 1. -/
def random (k : Draw) : Binary64 := .finite (k.val * 2 ^ (-53 : ℤ)) (isFinite_random k)

/-- `random.uniform(0, cap)` is `0 + (cap - 0) * random()`. -/
def uniform (cap : Binary64) (k : Draw) : Binary64 := cap.mul (random k)

/-- The microseconds of `x` seconds. The fraction is multiplied as a float, and then rounded. -/
def microseconds (x : ℚ) : Time := seconds ⌊x⌋₊ + roundEven (nearest ((x - ⌊x⌋₊) * 1000000))

/-- A `timedelta` has less than `10 ** 9` days. -/
def timedeltaEnd : Time := seconds (86400 * 1000000000)

/-- `timedelta(seconds=x)` -/
def timedeltaSeconds : Binary64 → Option Time
  | .finite x _ => if microseconds x < timedeltaEnd then some (microseconds x) else none
  | .inf => none
  | .nan => none

/-- The first instant after the year 9999, counted from the beginning of the year 1. -/
def datetimeEnd : Time := seconds (3652059 * 86400)

/-- A `datetime` plus a `timedelta`. -/
def addDelay (now delay : Time) : Option Time :=
  if now + delay < datetimeEnd then some (now + delay) else none

/-! ## `_backoff_seconds` -/

/-- The cap of the delay after failure number `attempt`. The power is converted to a float
before the cap applies, which raises `OverflowError` when it is too large.
SOURCE: app/delivery/worker.py:31-32 -/
def backoffCap (cfg : Settings) (attempt : ℕ) : Option Binary64 :=
  (cfg.deliveryBaseDelaySeconds.mulNat? (2 ^ attempt)).map fun x =>
    x.min cfg.deliveryMaxDelaySeconds

/-- `_backoff_seconds`. SOURCE: app/delivery/worker.py:29-33 -/
def backoffSeconds (cfg : Settings) (attempt : ℕ) (k : Draw) : Option Binary64 :=
  (backoffCap cfg attempt).map fun cap => uniform cap k

/-- `now + timedelta(seconds=_backoff_seconds(attempt))`.
SOURCE: app/delivery/worker.py:150-151 -/
def retryAt (cfg : Settings) (attempt : ℕ) (now : Time) (k : Draw) : Option Time :=
  ((backoffSeconds cfg attempt k).bind timedeltaSeconds).bind (addDelay now)

end EventPipeline.Program

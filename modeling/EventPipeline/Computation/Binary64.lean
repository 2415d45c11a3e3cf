import Mathlib.Algebra.Order.Field.Power
import Mathlib.Data.Int.Log
import Mathlib.Data.Rat.Floor
import Mathlib.Tactic.Linarith
import Mathlib.Tactic.Positivity

/-!
# Non-negative numbers of the format binary64

A finite number of the format is the rational number that it stands for, `m * 2 ^ e` with at
most 53 binary digits in `m` and none below `2 ^ (-1074)`. A result is rounded to the nearest
number of the format, and to the one with the even last digit between two. Rounding is
monotone and leaves the numbers of the format as they are, and this is all that the bounds on
computed values need.
-/

set_option autoImplicit false

namespace EventPipeline.Computation

/-! ## Rounding to an integer -/

/-- The nearest natural number, the even one of two; 0 for a negative number. -/
def roundEven (x : ℚ) : ℕ :=
  if x - ⌊x⌋₊ < 1 / 2 ∨ (x - ⌊x⌋₊ = 1 / 2 ∧ Even ⌊x⌋₊) then ⌊x⌋₊ else ⌊x⌋₊ + 1

/-- A natural number is not rounded. -/
@[simp] theorem roundEven_natCast (n : ℕ) : roundEven n = n := by
  simp [roundEven]

/-- Rounding does not go below the integer part. -/
theorem floor_le_roundEven (x : ℚ) : ⌊x⌋₊ ≤ roundEven x := by
  unfold roundEven
  split <;> omega

/-- Rounding goes up to the next integer at most. -/
theorem roundEven_le_floor_succ (x : ℚ) : roundEven x ≤ ⌊x⌋₊ + 1 := by
  unfold roundEven
  split <;> omega

/-- Rounding to an integer is monotone. -/
theorem roundEven_mono {x y : ℚ} (h : x ≤ y) : roundEven x ≤ roundEven y := by
  obtain hlt | heq := (Nat.floor_mono h).lt_or_eq
  · exact (roundEven_le_floor_succ x).trans ((Nat.succ_le_of_lt hlt).trans (floor_le_roundEven y))
  · unfold roundEven
    rw [heq]
    -- With the same floor, `x` is rounded up only if `y` is.
    split
    · split <;> omega
    · rename_i hx
      rw [if_neg]
      rintro (hy | ⟨hy, heven⟩)
      · exact hx (Or.inl (by linarith))
      · obtain hlt | heq' := h.lt_or_eq
        · exact hx (Or.inl (by linarith))
        · exact hx (Or.inr ⟨by rw [heq']; exact hy, heven⟩)

/-- A natural upper bound survives the rounding. -/
theorem roundEven_le {x : ℚ} {n : ℕ} (h : x ≤ n) : roundEven x ≤ n := by
  have := roundEven_mono h
  rwa [roundEven_natCast] at this

/-- A natural lower bound survives the rounding. -/
theorem le_roundEven {x : ℚ} {n : ℕ} (h : (n : ℚ) ≤ x) : n ≤ roundEven x := by
  have := roundEven_mono h
  rwa [roundEven_natCast] at this

/-! ## Rounding to the format -/

/-- The numbers of the format, with the exponent not bounded from above. -/
def IsGrid (x : ℚ) : Prop := ∃ (m : ℕ) (e : ℤ), m < 2 ^ 53 ∧ -1074 ≤ e ∧ x = m * 2 ^ e

/-- The exponent of the last digit for a number of the size of `x`. -/
def unitExp (x : ℚ) : ℤ := max (Int.log 2 x - 52) (-1074)

/-- The nearest number of the format, with the exponent not bounded from above. -/
def nearest (x : ℚ) : ℚ := roundEven (x / 2 ^ unitExp x) * 2 ^ unitExp x

variable {x y g : ℚ}

/-- Every power of two is positive. -/
theorem two_zpow_pos (e : ℤ) : (0 : ℚ) < 2 ^ e := by positivity

/-- A power of two that is not below the unit is a multiple of it. -/
theorem exists_two_zpow_eq {u k : ℤ} (h : u ≤ k) : ∃ n : ℕ, (2 : ℚ) ^ k = (2 ^ n : ℕ) * 2 ^ u := by
  obtain ⟨n, hn⟩ := Int.eq_ofNat_of_zero_le (sub_nonneg.2 h)
  refine ⟨n, ?_⟩
  rw [Nat.cast_pow, Nat.cast_ofNat, ← zpow_natCast, ← zpow_add₀ two_ne_zero]
  congr 1
  omega

/-- An upper bound in units of the last digit survives the rounding. -/
theorem nearest_le_mul {n : ℕ} (h : x ≤ n * 2 ^ unitExp x) : nearest x ≤ n * 2 ^ unitExp x := by
  have hle : roundEven (x / 2 ^ unitExp x) ≤ n :=
    roundEven_le ((div_le_iff₀ (two_zpow_pos _)).2 h)
  exact mul_le_mul_of_nonneg_right (Nat.cast_le.2 hle) (two_zpow_pos _).le

/-- A lower bound in units of the last digit survives the rounding. -/
theorem mul_le_nearest {n : ℕ} (h : n * 2 ^ unitExp x ≤ x) : n * 2 ^ unitExp x ≤ nearest x := by
  have hle : n ≤ roundEven (x / 2 ^ unitExp x) :=
    le_roundEven ((le_div_iff₀ (two_zpow_pos _)).2 h)
  exact mul_le_mul_of_nonneg_right (Nat.cast_le.2 hle) (two_zpow_pos _).le

/-- A rounded number is not negative. -/
theorem nearest_nonneg (x : ℚ) : 0 ≤ nearest x :=
  mul_nonneg (Nat.cast_nonneg _) (two_zpow_pos _).le

/-- What is not positive is rounded to 0. -/
theorem nearest_of_nonpos (h : x ≤ 0) : nearest x = 0 := by
  refine le_antisymm ?_ (nearest_nonneg x)
  have := nearest_le_mul (x := x) (n := 0) (by simpa using h)
  simpa using this

/-- A number lies below the power of two after its logarithm. -/
theorem lt_two_zpow_log (x : ℚ) : x < 2 ^ (Int.log 2 x + 1) := by
  exact_mod_cast Int.lt_zpow_succ_log_self (by norm_num : 1 < 2) x

/-- A positive number is at least the power of two of its logarithm. -/
theorem two_zpow_log_le (h : 0 < x) : 2 ^ Int.log 2 x ≤ x := by
  exact_mod_cast Int.zpow_log_le_self (by norm_num : 1 < 2) h

/-- A rounded number has at most 53 binary digits, and none below the smallest. -/
theorem isGrid_nearest (x : ℚ) : IsGrid (nearest x) := by
  have hu : -1074 ≤ unitExp x := le_max_right _ _
  have hbound : roundEven (x / 2 ^ unitExp x) ≤ 2 ^ 53 := by
    refine roundEven_le ((div_le_iff₀ (two_zpow_pos _)).2 ?_)
    calc x ≤ 2 ^ (Int.log 2 x + 1) := (lt_two_zpow_log x).le
      _ ≤ 2 ^ (53 + unitExp x) := zpow_le_zpow_right₀ (by norm_num) (by unfold unitExp; omega)
      _ = (2 ^ 53 : ℕ) * 2 ^ unitExp x := by rw [zpow_add₀ two_ne_zero]; norm_num
  obtain hlt | heq := hbound.lt_or_eq
  · exact ⟨_, _, hlt, hu, rfl⟩
  · -- The digits carry over, and the result is a power of two.
    refine ⟨1, unitExp x + 53, by norm_num, by omega, ?_⟩
    rw [nearest, heq, zpow_add₀ two_ne_zero]
    push_cast
    ring

/-- A multiple of its own unit is left as it is. -/
theorem nearest_of_eq {n : ℕ} (h : x = n * 2 ^ unitExp x) : nearest x = x :=
  le_antisymm ((nearest_le_mul h.le).trans h.ge) (h.le.trans (mul_le_nearest h.ge))

/-- A number of the grid is rounded to itself. -/
theorem nearest_of_isGrid (h : IsGrid x) : nearest x = x := by
  obtain ⟨m, e, hm, he, hx⟩ := h
  obtain hzero | hpos := (show 0 ≤ x by rw [hx]; positivity).eq_or_lt
  · rw [← hzero]
    exact nearest_of_nonpos le_rfl
  · -- The last digit of `x` is not below its unit, as there are at most 53 digits.
    have hu : unitExp x ≤ e := by
      have hlt : (2 : ℚ) ^ Int.log 2 x < 2 ^ (53 + e) := by
        calc (2 : ℚ) ^ Int.log 2 x ≤ x := two_zpow_log_le hpos
          _ = m * 2 ^ e := hx
          _ < 2 ^ (53 : ℤ) * 2 ^ e :=
            mul_lt_mul_of_pos_right (by exact_mod_cast hm) (two_zpow_pos e)
          _ = 2 ^ (53 + e) := (zpow_add₀ two_ne_zero _ _).symm
      have hlog := (zpow_lt_zpow_iff_right₀ (by norm_num : (1 : ℚ) < 2)).1 hlt
      unfold unitExp
      omega
    obtain ⟨n, hn⟩ := exists_two_zpow_eq hu
    refine nearest_of_eq (n := m * 2 ^ n) ?_
    rw [Nat.cast_mul, mul_assoc, ← hn]
    exact hx

/-- Where the unit of `y` is larger, a power of two lies between `x` and `y`. -/
theorem nearest_le_nearest_of_lt (hy : 0 < y) (hu : unitExp x < unitExp y) :
    nearest x ≤ nearest y := by
  have hlog : Int.log 2 x + 1 ≤ Int.log 2 y := by
    unfold unitExp at hu
    omega
  have hux : unitExp x ≤ Int.log 2 y := by
    unfold unitExp at hu ⊢
    omega
  have huy : unitExp y ≤ Int.log 2 y := by
    unfold unitExp at hu ⊢
    omega
  obtain ⟨m, hm⟩ := exists_two_zpow_eq hux
  obtain ⟨n, hn⟩ := exists_two_zpow_eq huy
  have hx : x ≤ 2 ^ Int.log 2 y :=
    (lt_two_zpow_log x).le.trans (zpow_le_zpow_right₀ (by norm_num) hlog)
  calc nearest x ≤ 2 ^ Int.log 2 y := hm ▸ nearest_le_mul (hm ▸ hx)
    _ ≤ nearest y := hn ▸ mul_le_nearest (hn ▸ two_zpow_log_le hy)

/-- Rounding is monotone. -/
theorem nearest_mono (h : x ≤ y) : nearest x ≤ nearest y := by
  obtain hx | hx := le_or_gt x 0
  · rw [nearest_of_nonpos hx]
    exact nearest_nonneg y
  · have hlog : Int.log 2 x ≤ Int.log 2 y := Int.log_mono_right hx h
    have hu : unitExp x ≤ unitExp y := by
      unfold unitExp
      omega
    obtain hlt | heq := hu.lt_or_eq
    · exact nearest_le_nearest_of_lt (hx.trans_le h) hlt
    · unfold nearest
      rw [heq]
      have hdiv : x / 2 ^ unitExp y ≤ y / 2 ^ unitExp y :=
        div_le_div_of_nonneg_right h (two_zpow_pos _).le
      exact mul_le_mul_of_nonneg_right (Nat.cast_le.2 (roundEven_mono hdiv)) (two_zpow_pos _).le

/-- An upper bound of the grid survives the rounding. -/
theorem nearest_le (hg : IsGrid g) (h : x ≤ g) : nearest x ≤ g := by
  have := nearest_mono h
  rwa [nearest_of_isGrid hg] at this

/-- A lower bound of the grid survives the rounding. -/
theorem le_nearest (hg : IsGrid g) (h : g ≤ x) : g ≤ nearest x := by
  have := nearest_mono h
  rwa [nearest_of_isGrid hg] at this

/-- A natural number of 53 binary digits is on the grid. -/
theorem isGrid_natCast {n : ℕ} (h : n < 2 ^ 53) : IsGrid n := ⟨n, 0, h, by norm_num, by simp⟩

/-- The numbers of the grid are not negative. -/
theorem IsGrid.nonneg (h : IsGrid x) : 0 ≤ x := by
  obtain ⟨m, e, -, -, rfl⟩ := h
  positivity

/-- Doubling stays on the grid. -/
theorem IsGrid.mul_two_pow (h : IsGrid x) (n : ℕ) : IsGrid (x * 2 ^ n) := by
  obtain ⟨m, e, hm, he, rfl⟩ := h
  refine ⟨m, e + n, hm, by omega, ?_⟩
  rw [zpow_add₀ two_ne_zero, zpow_natCast, mul_assoc]

/-- The powers of two are on the grid. -/
theorem isGrid_two_pow (n : ℕ) : IsGrid (2 ^ n) := by
  simpa using (isGrid_natCast (n := 1) (by norm_num)).mul_two_pow n

/-! ## The numbers of the format -/

/-- The number is below the first power of two that is too large for the format. -/
def IsFinite (x : ℚ) : Prop := IsGrid x ∧ x < 2 ^ 1024

/-- A rounded number below `2 ^ 1024` is a finite number of the format. -/
theorem isFinite_nearest (h : nearest x < 2 ^ 1024) : IsFinite (nearest x) := ⟨isGrid_nearest x, h⟩

/-- A natural number of 53 binary digits is a finite number of the format. -/
theorem isFinite_natCast {n : ℕ} (h : n < 2 ^ 53) : IsFinite n := by
  refine ⟨isGrid_natCast h, ?_⟩
  calc (n : ℚ) < 2 ^ 53 := by exact_mod_cast h
    _ ≤ 2 ^ 1024 := pow_le_pow_right₀ (by norm_num) (by norm_num)

inductive Binary64 where
  | finite (x : ℚ) (h : IsFinite x)
  | inf
  | nan

namespace Binary64

/-- The number that `x` is rounded to, infinity where that is too large. -/
def ofRat (x : ℚ) : Binary64 :=
  if h : nearest x < 2 ^ 1024 then .finite (nearest x) (isFinite_nearest h) else .inf

/-- The conversion of an integer, `none` where it is too large. -/
def ofNat? (n : ℕ) : Option Binary64 :=
  match ofRat n with
  | .inf => none
  | x => some x

def mul : Binary64 → Binary64 → Binary64
  | .finite x _, .finite y _ => ofRat (x * y)
  | .finite x _, .inf => if x = 0 then .nan else .inf
  | .inf, .finite y _ => if y = 0 then .nan else .inf
  | .inf, .inf => .inf
  | .nan, _ => .nan
  | _, .nan => .nan

/-- The product with an integer, which is converted first. -/
def mulNat? (x : Binary64) (n : ℕ) : Option Binary64 := (ofNat? n).map x.mul

def isNaN : Binary64 → Bool
  | .nan => true
  | _ => false

/-- The place on the line of the numbers with an infinity; `nan` has none, and the comparisons
below exclude it. -/
def value : Binary64 → WithTop ℚ
  | .finite x _ => x
  | .inf => ⊤
  | .nan => ⊤

instance instLE : LE Binary64 := ⟨fun a b => a.isNaN = false ∧ b.isNaN = false ∧ a.value ≤ b.value⟩

instance instLT : LT Binary64 := ⟨fun a b => a.isNaN = false ∧ b.isNaN = false ∧ a.value < b.value⟩

instance decidableLT (a b : Binary64) : Decidable (a < b) :=
  inferInstanceAs (Decidable (a.isNaN = false ∧ b.isNaN = false ∧ a.value < b.value))

instance instZero : Zero Binary64 := ⟨ofRat 0⟩

/-- The first of two, unless the second one is less. -/
def min (a b : Binary64) : Binary64 := if b < a then b else a

/-- What is rounded below `2 ^ 1024` is finite. -/
theorem ofRat_of_lt (h : nearest x < 2 ^ 1024) :
    ofRat x = .finite (nearest x) (isFinite_nearest h) :=
  dif_pos h

/-- What is rounded to `2 ^ 1024` or more overflows to infinity. -/
theorem ofRat_of_le (h : 2 ^ 1024 ≤ nearest x) : ofRat x = .inf := dif_neg h.not_gt

/-- A number that needs no rounding. -/
theorem ofRat_of_isFinite (h : IsFinite x) : ofRat x = .finite x h := by
  have heq : nearest x = x := nearest_of_isGrid h.1
  rw [ofRat_of_lt (heq.symm ▸ h.2)]
  simp only [heq]

/-- A rounded number is never `nan`. -/
theorem isNaN_ofRat (x : ℚ) : (ofRat x).isNaN = false := by
  unfold ofRat
  split <;> rfl

/-- A finite number of the format keeps its value. -/
theorem value_ofRat (h : IsFinite x) : (ofRat x).value = x := by rw [ofRat_of_isFinite h]; rfl

/-- Finite numbers of the format are compared by their values. -/
theorem ofRat_lt_ofRat (hx : IsFinite x) (hy : IsFinite y) (h : x < y) : ofRat x < ofRat y := by
  refine ⟨isNaN_ofRat x, isNaN_ofRat y, ?_⟩
  rw [value_ofRat hx, value_ofRat hy]
  exact WithTop.coe_lt_coe.2 h

/-- A number of the grid from `2 ^ 1024` on overflows to infinity. -/
theorem ofRat_of_isGrid (h : IsGrid x) (hx : 2 ^ 1024 ≤ x) : ofRat x = .inf :=
  ofRat_of_le (hx.trans_eq (nearest_of_isGrid h).symm)

/-- The powers of two that are converted are those with an exponent below 1024. -/
theorem ofNat?_two_pow_of_lt {n : ℕ} (h : n < 1024) :
    ∃ hn, ofNat? (2 ^ n) = some (.finite (2 ^ n) hn) := by
  have hn : IsFinite ((2 : ℚ) ^ n) :=
    ⟨isGrid_two_pow n, pow_lt_pow_right₀ (by norm_num) h⟩
  refine ⟨hn, ?_⟩
  have hcast : ((2 ^ n : ℕ) : ℚ) = 2 ^ n := by push_cast; rfl
  rw [ofNat?, hcast, ofRat_of_isFinite hn]

/-- The integer `2 ^ n` cannot be converted from `n = 1024` on. -/
theorem ofNat?_two_pow_of_le {n : ℕ} (h : 1024 ≤ n) : ofNat? (2 ^ n) = none := by
  have hcast : ((2 ^ n : ℕ) : ℚ) = 2 ^ n := by push_cast; rfl
  rw [ofNat?, hcast, ofRat_of_isGrid (isGrid_two_pow n) (pow_le_pow_right₀ (by norm_num) h)]

/-- A product with `2 ^ n` raises from `n = 1024` on. -/
theorem mulNat?_two_pow_of_le (x : Binary64) {n : ℕ} (h : 1024 ≤ n) :
    x.mulNat? (2 ^ n) = none := by
  rw [mulNat?, ofNat?_two_pow_of_le h, Option.map_none]

/-- No value is negative. -/
theorem value_nonneg (a : Binary64) : 0 ≤ a.value := by
  cases a with
  | finite x h => exact WithTop.coe_nonneg.2 h.1.nonneg
  | inf => exact le_top
  | nan => exact le_top

/-- A number with a finite value is finite. -/
theorem eq_finite_of_value {a : Binary64} (h : a.value = x) : ∃ hx, a = .finite x hx := by
  cases a with
  | finite y hy =>
    obtain rfl : y = x := WithTop.coe_injective h
    exact ⟨hy, rfl⟩
  | inf => exact absurd h.symm WithTop.coe_ne_top
  | nan => exact absurd h.symm WithTop.coe_ne_top

/-- What is too large for the format becomes infinite. -/
def clip (v : WithTop ℚ) : WithTop ℚ := if v < ((2 ^ 1024 : ℚ) : WithTop ℚ) then v else ⊤

/-- A value below `2 ^ 1024` is not clipped. -/
theorem clip_coe (h : x < 2 ^ 1024) : clip x = x := if_pos (WithTop.coe_lt_coe.2 h)

/-- A clipped value that is finite was not clipped. -/
theorem of_clip_eq_coe {v : WithTop ℚ} (h : clip v = x) : v = x := by
  unfold clip at h
  split at h
  · exact h
  · exact absurd h.symm WithTop.coe_ne_top

/-- Clipping is monotone. -/
theorem clip_mono {v w : WithTop ℚ} (h : v ≤ w) : clip v ≤ clip w := by
  unfold clip
  by_cases hw : w < ((2 ^ 1024 : ℚ) : WithTop ℚ)
  · rw [if_pos hw, if_pos (h.trans_lt hw)]
    exact h
  · rw [if_neg hw]
    exact le_top

/-- Clipping commutes with the minimum. -/
theorem clip_min (v w : WithTop ℚ) : clip (Min.min v w) = Min.min (clip v) (clip w) :=
  Monotone.map_min fun _ _ => clip_mono

/-- The value of a number is clipped already. -/
theorem clip_value (a : Binary64) : clip a.value = a.value := by
  cases a with
  | finite x h => exact clip_coe h.2
  | inf => exact if_neg (not_lt.2 le_top)
  | nan => exact if_neg (not_lt.2 le_top)

/-- The product with a power of two is exact, unless it is too large. -/
theorem mulNat?_two_pow_of_lt {a : Binary64} (ha : a.isNaN = false) {n : ℕ} (h : n < 1024) :
    ∃ b, a.mulNat? (2 ^ n) = some b ∧ b.isNaN = false ∧
      b.value = clip (a.value.map (· * 2 ^ n)) := by
  obtain ⟨hn, heq⟩ := ofNat?_two_pow_of_lt h
  rw [mulNat?, heq, Option.map_some]
  cases a with
  | nan => cases ha
  | inf =>
    have hne : (2 : ℚ) ^ n ≠ 0 := by positivity
    exact ⟨_, rfl, by simp [mul, hne, isNaN], by simp [mul, hne, value, clip]⟩
  | finite x hx =>
    have hgrid : IsGrid (x * 2 ^ n) := hx.1.mul_two_pow n
    refine ⟨_, rfl, ?_⟩
    rw [mul]
    by_cases hlt : x * 2 ^ n < 2 ^ 1024
    · rw [ofRat_of_isFinite ⟨hgrid, hlt⟩]
      exact ⟨rfl, (clip_coe hlt).symm⟩
    · rw [ofRat_of_isGrid hgrid (not_lt.1 hlt)]
      refine ⟨rfl, (if_neg fun hlt' => hlt (WithTop.coe_lt_coe.1 hlt')).symm⟩

/-- The minimum with a number; `nan` as the second argument is never chosen. -/
theorem min_spec {a : Binary64} (ha : a.isNaN = false) (b : Binary64) :
    (min a b).isNaN = false ∧ (min a b).value = Min.min a.value b.value := by
  unfold min
  split
  · rename_i hlt
    exact ⟨hlt.1, (min_eq_right hlt.2.2.le).symm⟩
  · rename_i hlt
    refine ⟨ha, (min_eq_left ?_).symm⟩
    cases b with
    | nan => exact le_top
    | _ => exact not_lt.1 fun h => hlt ⟨rfl, ha, h⟩

/-- `min` keeps its first argument when that is `nan`. -/
theorem nan_min (b : Binary64) : min .nan b = .nan := if_neg fun h => Bool.noConfusion h.2.1

end Binary64

end EventPipeline.Computation

import Mathlib.Data.Rat.Floor
import Mathlib.Tactic.Linarith

/-!
# Rounding to doubles

The nearest integer with ties to even, the nearest multiple of a unit, and true division: `a / b` of
two integers is the double nearest to the quotient, a tie going to the one whose last bit is zero.
Rounding keeps the order (`roundTo_mono`) and moves no value by a unit (`roundTo_near`).
-/

set_option autoImplicit false

namespace WheelForge.Python

/-- The nearest integer, the even one of two that are equally near. -/
def roundHalfEven (x : ℚ) : Int :=
  let below := ⌊x⌋
  let rest := x - below
  if rest < 1 / 2 then below
  else if 1 / 2 < rest then below + 1
  else if below % 2 = 0 then below else below + 1

theorem floor_le_roundHalfEven (x : ℚ) : ⌊x⌋ ≤ roundHalfEven x := by
  unfold roundHalfEven
  dsimp only
  split
  · exact le_refl _
  · split
    · omega
    · split <;> omega

theorem roundHalfEven_le_floor (x : ℚ) : roundHalfEven x ≤ ⌊x⌋ + 1 := by
  unfold roundHalfEven
  dsimp only
  split
  · omega
  · split
    · exact le_refl _
    · split <;> omega

theorem roundHalfEven_mono {x y : ℚ} (hxy : x ≤ y) : roundHalfEven x ≤ roundHalfEven y := by
  rcases (Int.floor_mono hxy).lt_or_eq with hlt | heq
  · exact (roundHalfEven_le_floor x).trans (le_trans hlt (floor_le_roundHalfEven y))
  · -- between the same integers the rests are in order
    have hrest : x - ⌊y⌋ ≤ y - ⌊y⌋ := by linarith
    unfold roundHalfEven
    dsimp only
    rw [heq]
    split_ifs <;> first | omega | (exfalso; linarith)

/-- The multiple of a unit that is nearest. -/
def roundTo (unit x : ℚ) : ℚ := roundHalfEven (x / unit) * unit

theorem roundTo_mono {unit x y : ℚ} (h : 0 < unit) (hxy : x ≤ y) :
    roundTo unit x ≤ roundTo unit y := by
  have hdiv : x / unit ≤ y / unit := by gcongr
  have hround : (roundHalfEven (x / unit) : ℚ) ≤ roundHalfEven (y / unit) := by
    exact_mod_cast roundHalfEven_mono hdiv
  exact mul_le_mul_of_nonneg_right hround h.le

theorem roundTo_near {unit : ℚ} (h : 0 < unit) (x : ℚ) :
    x - unit ≤ roundTo unit x ∧ roundTo unit x ≤ x + unit := by
  have hlow : x / unit - 1 ≤ roundHalfEven (x / unit) := by
    have hfloor : ((⌊x / unit⌋ : Int) : ℚ) ≤ roundHalfEven (x / unit) := by
      exact_mod_cast floor_le_roundHalfEven (x / unit)
    linarith [Int.sub_one_lt_floor (x / unit)]
  have hhigh : (roundHalfEven (x / unit) : ℚ) ≤ x / unit + 1 := by
    have hfloor : (roundHalfEven (x / unit) : ℚ) ≤ ((⌊x / unit⌋ : Int) : ℚ) + 1 := by
      exact_mod_cast roundHalfEven_le_floor (x / unit)
    linarith [Int.floor_le (x / unit)]
  have hx : x / unit * unit = x := div_mul_cancel₀ x h.ne'
  constructor
  · calc x - unit = (x / unit - 1) * unit := by rw [sub_mul, hx, one_mul]
      _ ≤ roundTo unit x := mul_le_mul_of_nonneg_right hlow h.le
  · calc roundTo unit x ≤ (x / unit + 1) * unit := mul_le_mul_of_nonneg_right hhigh h.le
      _ = x + unit := by rw [add_mul, hx, one_mul]

/-- The exponent `e` with `2 ^ e ≤ a / b < 2 ^ (e + 1)`, for positive numbers. -/
def quotientExponent (a b : Nat) : Int :=
  let e : Int := (Nat.log2 a : Int) - Nat.log2 b
  if (a : ℚ) / b < 2 ^ e then e - 1 else e

/-- `a / b` for positive numbers; the quotient is not so large that it overflows. -/
def trueDivision (a b : Nat) : ℚ :=
  let unit : ℚ := 2 ^ max (quotientExponent a b - 52) (-1074)
  roundHalfEven ((a : ℚ) / b / unit) * unit

example : trueDivision 400 2 = 200 := by decide +kernel

-- above the limit 200 as a fraction, but equal to it as a double
example : trueDivision (200 * 2 ^ 60 + 1) (2 ^ 60) = 200 := by decide +kernel

end WheelForge.Python

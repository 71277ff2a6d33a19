import MandatedVaultFactory.RoundingProofs

/-!
# Doubles

Binary floating point numbers of fifty-three bits, as the rational numbers that they are, and the
decimal numbers that stand for them in texts.

* **`double`** — the double next to a number, where there is one so large.
* **`shortest`** — the number of the fewest digits that is read as a double.
* **`abs_shown_sub_le`** — how far what is shown is from the number. -/

namespace Doubles

open Rounding

/-! ## The double next to a number -/

/-- The place of the last bit of the double next to a number. -/
def lastPlace (x : ℚ) : ℤ := max (Int.log 2 |x| - 52) (-1074)

/-- The double next to a number; `none` is beyond the largest. -/
def double (x : ℚ) : Option ℚ :=
  let d : ℚ := halfEven (x / 2 ^ lastPlace x) * 2 ^ lastPlace x
  if |d| < 2 ^ 1024 then some d else none

/-- Half of the smallest double. -/
def tiny : ℚ := 2 ^ (-1075 : ℤ)

theorem tiny_pos : 0 < tiny := zpow_pos (by norm_num) _

/-- How far a double next to a number can be from it. -/
def spread (x : ℚ) : ℚ := |x| / 2 ^ 53 + tiny

theorem spread_nonneg (x : ℚ) : 0 ≤ spread x :=
  add_nonneg (div_nonneg (abs_nonneg x) (by norm_num)) tiny_pos.le

/-- Half a unit of the last place. -/
theorem half_lastPlace_le {x : ℚ} (hx : x ≠ 0) : (2 : ℚ) ^ lastPlace x / 2 ≤ spread x := by
  have hhalf : ∀ place : ℤ, (2 : ℚ) ^ place / 2 = 2 ^ (place - 1) := fun place => by
    rw [zpow_sub_one₀ (by norm_num), div_eq_mul_inv]
  have hlarge : 0 < |x| := abs_pos.mpr hx
  rw [lastPlace, spread, hhalf]
  rcases le_total (Int.log 2 |x| - 52) (-1074) with hle | hle
  · rw [max_eq_right hle]
    have habs : 0 ≤ |x| / 2 ^ 53 := div_nonneg hlarge.le (by norm_num)
    exact le_add_of_nonneg_left habs
  · rw [max_eq_left hle]
    have hlog : (2 : ℚ) ^ Int.log 2 |x| ≤ |x| := by
      have h := Int.zpow_log_le_self (b := 2) (by norm_num) hlarge
      simpa using h
    have hsplit : (2 : ℚ) ^ (Int.log 2 |x| - 52 - 1) = 2 ^ Int.log 2 |x| / 2 ^ 53 := by
      rw [sub_sub, zpow_sub₀ (by norm_num)]
      norm_num
    rw [hsplit]
    exact (div_le_div_of_nonneg_right hlog (by norm_num)).trans
      (le_add_of_nonneg_right tiny_pos.le)

theorem double_of_int {n : ℤ} (x : ℚ) (hx : x / 2 ^ lastPlace x = n) (hbound : |x| < 2 ^ 1024) :
    double x = some x := by
  have hunit : (2 : ℚ) ^ lastPlace x ≠ 0 := zpow_ne_zero _ (by norm_num)
  have hsame : (halfEven (x / 2 ^ lastPlace x) : ℚ) * 2 ^ lastPlace x = x := by
    rw [hx, halfEven_intCast, ← hx, div_mul_cancel₀ _ hunit]
  rw [double, hsame, if_pos hbound]

theorem double_zero : double 0 = some 0 :=
  double_of_int 0 (n := 0) (by rw [zero_div, Int.cast_zero]) (by rw [abs_zero]; positivity)

/-- **The double next to a number is near it.** -/
theorem abs_double_sub_le {x d : ℚ} (h : double x = some d) : |d - x| ≤ spread x := by
  by_cases hx : x = 0
  · rw [hx, double_zero] at h
    rw [← Option.some.inj h, hx, sub_self, abs_zero]
    exact spread_nonneg 0
  have hunit : (0 : ℚ) < 2 ^ lastPlace x := zpow_pos (by norm_num) _
  rw [double] at h
  by_cases hbound : |(halfEven (x / 2 ^ lastPlace x) : ℚ) * 2 ^ lastPlace x| < 2 ^ 1024
  · rw [if_pos hbound] at h
    obtain rfl := Option.some.inj h
    have hscale : (halfEven (x / 2 ^ lastPlace x) : ℚ) * 2 ^ lastPlace x - x
        = (halfEven (x / 2 ^ lastPlace x) - x / 2 ^ lastPlace x) * 2 ^ lastPlace x := by
      rw [sub_mul, div_mul_cancel₀ _ hunit.ne']
    rw [hscale, abs_mul, abs_of_pos hunit]
    calc |(halfEven (x / 2 ^ lastPlace x) : ℚ) - x / 2 ^ lastPlace x| * 2 ^ lastPlace x
        ≤ 1 / 2 * 2 ^ lastPlace x :=
          mul_le_mul_of_nonneg_right (abs_halfEven_sub_le _) hunit.le
      _ = 2 ^ lastPlace x / 2 := by ring
      _ ≤ spread x := half_lastPlace_le hx
  · rw [if_neg hbound] at h
    cases h

/-! ## The number that is shown for it -/

/-- Of the two numbers with so many digits next to a double the nearer one that is read as it. -/
def withDigits (d : ℚ) (digits : Nat) : Option ℚ :=
  let unit : ℚ := 10 ^ (Int.log 10 |d| + 1 - digits)
  let x := d / unit
  ([halfEven x, ⌊x⌋, ⌊x⌋ + 1].map fun n : ℤ => n * unit).find? fun c => double c = some d

/-- The number of the fewest digits that is read as a double; seventeen digits are enough. -/
def shortest (d : ℚ) : ℚ :=
  ((List.range 17).findSome? fun digits => withDigits d (digits + 1)).getD d

/-- The number that the text of the double next to a number is written for. -/
def shown (x : ℚ) : Option ℚ := (double x).map shortest

theorem double_of_withDigits {d c : ℚ} {digits : Nat} (h : withDigits d digits = some c) :
    double c = some d := by
  have hfound := List.find?_some h
  exact of_decide_eq_true hfound

/-- What is shown is read as the double, unless it is the double itself. -/
theorem shortest_cases (d : ℚ) : shortest d = d ∨ double (shortest d) = some d := by
  rw [shortest]
  cases hfound : (List.range 17).findSome? fun digits => withDigits d (digits + 1) with
  | none => exact Or.inl rfl
  | some c =>
      obtain ⟨digits, _, hdigits⟩ := List.exists_of_findSome?_eq_some hfound
      exact Or.inr (double_of_withDigits hdigits)

theorem shown_isSome_iff (x : ℚ) : (∃ s, shown x = some s) ↔ ∃ d, double x = some d := by
  rw [shown]
  cases double x with
  | none => simp
  | some d => simp

/-- What two roundings can change of a number. -/
def loss (x : ℚ) : ℚ := |x| / 2 ^ 51 + 4 * tiny

/-- **How far what is shown is from the number**: two roundings. -/
theorem abs_shown_sub_le {x s : ℚ} (h : shown x = some s) : |s - x| ≤ loss x := by
  obtain ⟨d, hd, rfl⟩ := Option.map_eq_some_iff.mp h
  have hfirst := abs_double_sub_le hd
  have hsecond : |d - shortest d| ≤ spread (shortest d) := by
    rcases shortest_cases d with heq | heq
    · rw [heq, sub_self, abs_zero]
      exact spread_nonneg d
    · exact abs_double_sub_le heq
  rw [spread] at hfirst hsecond
  -- what is shown is not much larger than the number
  have hshown : |shortest d| ≤ |d - shortest d| + |d| := by
    have htriangle := abs_sub_abs_le_abs_sub (shortest d) d
    rw [abs_sub_comm] at htriangle
    linarith
  have hdouble : |d| ≤ |d - x| + |x| := by
    have htriangle := abs_sub_abs_le_abs_sub d x
    linarith
  have hsum : |shortest d - x| ≤ |d - shortest d| + |d - x| := by
    have htriangle := abs_sub_le (shortest d) d x
    rw [abs_sub_comm (shortest d) d] at htriangle
    exact htriangle
  have hx := abs_nonneg x
  have htiny := tiny_pos
  rw [loss]
  norm_num at hfirst hsecond ⊢
  linarith

/-- Of a number that is not tiny the loss is in proportion. -/
theorem loss_le {x : ℚ} (h : 1 / 10 ^ 18 ≤ x) : loss x ≤ x / 2 ^ 51 + x / 2 ^ 60 := by
  have hx : 0 ≤ x := le_trans (by norm_num) h
  have htiny : 4 * tiny ≤ 2 ^ (-180 : ℤ) := by
    have hfour : 4 * tiny = 2 ^ (-1073 : ℤ) := by
      rw [tiny, show (-1073 : ℤ) = 2 + -1075 by norm_num, zpow_add₀ (by norm_num)]
      norm_num
    rw [hfour]
    exact zpow_le_zpow_right₀ (by norm_num) (by norm_num)
  have hsmall : (2 : ℚ) ^ (-180 : ℤ) ≤ x / 2 ^ 60 := by
    rw [le_div_iff₀ (by norm_num)]
    refine le_trans ?_ h
    norm_num
  rw [loss, abs_of_nonneg hx]
  exact add_le_add_right (htiny.trans hsmall) _

theorem double_one : double 1 = some 1 := by decide +kernel

end Doubles

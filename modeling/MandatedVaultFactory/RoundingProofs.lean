import Mathlib.Algebra.Order.Floor.Ring
import Mathlib.Algebra.Order.Field.Rat
import Mathlib.Data.Rat.Floor
import Mathlib.Data.Int.Log
import Mathlib.Tactic.Linarith
import Mathlib.Tactic.FieldSimp
import Mathlib.Tactic.NormNum
import Mathlib.Tactic.Ring

/-!
# Rounding to the nearest

The integer nearest to a number, and between two of them the even one, as a relation.  A number
is rounded at a place by rounding the number of units of that place.

* **`Nearest.eq`** — there is only one; `nearest_halfEven`, and there is one.
* **`Nearest.even_le_iff`** — from where on a number is rounded up to an even one.
* **`floor_place_eq_iff`** — when rounding at a place leaves the integral part as it is. -/

namespace Rounding

/-- The integer that a number is rounded to: the nearest one, and the even one of two. -/
def Nearest (x : ℚ) (n : ℤ) : Prop := |x - n| < 1 / 2 ∨ |x - n| = 1 / 2 ∧ Even n

theorem Nearest.abs_sub_le {x : ℚ} {n : ℤ} (h : Nearest x n) : |x - n| ≤ 1 / 2 :=
  h.elim le_of_lt fun h => h.1.le

/-- What lies above an integer is not rounded below it. -/
theorem Nearest.le_of_le {x : ℚ} {n k : ℤ} (h : Nearest x n) (hk : (k : ℚ) ≤ x) : k ≤ n := by
  have hnear := abs_le.mp h.abs_sub_le
  have hlt : (k : ℚ) < n + 1 := by linarith
  have hint : k < n + 1 := by exact_mod_cast hlt
  omega

/-- What lies below an integer is not rounded above it. -/
theorem Nearest.ge_of_ge {x : ℚ} {n k : ℤ} (h : Nearest x n) (hk : x ≤ k) : n ≤ k := by
  have hnear := abs_le.mp h.abs_sub_le
  have hlt : (n : ℚ) < k + 1 := by linarith
  have hint : n < k + 1 := by exact_mod_cast hlt
  omega

/-- An even number is reached from the half before it on. -/
theorem Nearest.even_le_iff {x : ℚ} {n k : ℤ} (h : Nearest x n) (hk : Even k) :
    k ≤ n ↔ (k : ℚ) - 1 / 2 ≤ x := by
  have hnear := abs_le.mp h.abs_sub_le
  constructor
  · intro hle
    have hle : (k : ℚ) ≤ n := by exact_mod_cast hle
    linarith
  · intro hle
    by_contra hlt
    have hint : n ≤ k - 1 := by omega
    have hn : (n : ℚ) ≤ k - 1 := by exact_mod_cast hint
    -- then the number is halfway, and its neighbour below is odd
    have hx : x = k - 1 / 2 := by linarith
    have heq : n = k - 1 := by
      have hge : (k : ℚ) - 1 ≤ n := by linarith
      have hge : k - 1 ≤ n := by exact_mod_cast hge
      omega
    rcases h with h | ⟨_, heven⟩
    · rw [hx, heq, Int.cast_sub, Int.cast_one, abs_lt] at h
      linarith
    · rw [heq, Int.even_sub_one] at heven
      exact heven hk

/-- And an odd one is left there. -/
theorem Nearest.even_ge_iff {x : ℚ} {n k : ℤ} (h : Nearest x n) (hk : Even k) :
    n ≤ k ↔ x ≤ (k : ℚ) + 1 / 2 := by
  have hneg : Nearest (-x) (-n) := by
    have habs : |(-x) - ((-n : ℤ) : ℚ)| = |x - n| := by
      rw [Int.cast_neg, ← abs_neg]
      congr 1
      ring
    rw [Nearest, habs, even_neg]
    exact h
  have hiff := hneg.even_le_iff (even_neg.mpr hk)
  rw [neg_le_neg_iff, Int.cast_neg] at hiff
  rw [hiff]
  constructor <;> intro hle <;> linarith

/-- There is only one. -/
theorem Nearest.eq {x : ℚ} {n m : ℤ} (hn : Nearest x n) (hm : Nearest x m) : n = m := by
  -- the even one of two neighbours decides
  have hstep : ∀ {k l : ℤ}, Nearest x k → Nearest x l → k ≤ l := by
    intro k l hk hl
    have hkl := abs_le.mp hk.abs_sub_le
    have hll := abs_le.mp hl.abs_sub_le
    have hnext : k ≤ l + 1 := by
      have hle : (k : ℚ) ≤ l + 1 := by linarith
      exact_mod_cast hle
    by_contra hlt
    have heq : k = l + 1 := by omega
    rcases Int.even_or_odd l with heven | hodd
    · have hx := (hk.even_ge_iff heven).mpr
      have hup : (l : ℚ) + 1 = k := by exact_mod_cast heq.symm
      exact absurd (hx (by linarith)) hlt
    · have heven : Even k := heq ▸ hodd.add_one
      have hx := (hl.even_le_iff heven).mpr
      have hup : (k : ℚ) = l + 1 := by exact_mod_cast heq
      exact absurd (hx (by linarith)) hlt
  exact le_antisymm (hstep hn hm) (hstep hm hn)

theorem nearest_intCast (n : ℤ) : Nearest n n := by
  left
  rw [sub_self, abs_zero]
  norm_num

/-! ## A number -/

/-- To the nearest integer, and between two of them to the even one. -/
def halfEven (x : ℚ) : ℤ :=
  if x - ⌊x⌋ < 1 / 2 then ⌊x⌋
  else if 1 / 2 < x - ⌊x⌋ then ⌊x⌋ + 1
  else if ⌊x⌋ % 2 = 0 then ⌊x⌋ else ⌊x⌋ + 1

theorem nearest_halfEven (x : ℚ) : Nearest x (halfEven x) := by
  have hle := Int.floor_le x
  have hlt := Int.lt_floor_add_one x
  rw [halfEven]
  by_cases hbelow : x - ⌊x⌋ < 1 / 2
  · rw [if_pos hbelow]
    left
    rw [abs_lt]
    constructor <;> linarith
  rw [if_neg hbelow]
  by_cases habove : 1 / 2 < x - ⌊x⌋
  · rw [if_pos habove, Nearest]
    left
    rw [Int.cast_add, Int.cast_one, abs_lt]
    constructor <;> linarith
  -- halfway: the two neighbours are as near, and one of them is even
  rw [if_neg habove]
  have hhalf : x - ⌊x⌋ = 1 / 2 := le_antisymm (not_lt.mp habove) (not_lt.mp hbelow)
  right
  by_cases heven : ⌊x⌋ % 2 = 0
  · rw [if_pos heven, hhalf]
    exact ⟨abs_of_pos (by norm_num), Int.even_iff.mpr heven⟩
  · rw [if_neg heven]
    have hnext : x - ((⌊x⌋ + 1 : ℤ) : ℚ) = -(1 / 2) := by
      rw [Int.cast_add, Int.cast_one]
      linarith
    rw [hnext, abs_neg]
    exact ⟨abs_of_pos (by norm_num), Int.even_iff.mpr (by omega)⟩

theorem abs_halfEven_sub_le (x : ℚ) : |(halfEven x : ℚ) - x| ≤ 1 / 2 :=
  abs_sub_comm x _ ▸ (nearest_halfEven x).abs_sub_le

theorem halfEven_intCast (n : ℤ) : halfEven n = n := (nearest_halfEven _).eq (nearest_intCast n)

/-! ## A quotient -/

/-- `c / m`, rounded. -/
def halfEvenDiv (c m : Nat) : Nat :=
  if 2 * (c % m) < m then c / m
  else if m < 2 * (c % m) then c / m + 1
  else if c / m % 2 = 0 then c / m else c / m + 1

theorem nearest_halfEvenDiv (c : Nat) {m : Nat} (hm : 0 < m) :
    Nearest (c / m) (halfEvenDiv c m) := by
  have hpos : (0 : ℚ) < m := by exact_mod_cast hm
  have hsplit : (c : ℚ) / m = (c / m : ℕ) + (c % m : ℕ) / m := by
    have hmod : (c : ℚ) = m * (c / m : ℕ) + (c % m : ℕ) := by
      exact_mod_cast (Nat.div_add_mod c m).symm
    rw [div_eq_iff hpos.ne', add_mul, div_mul_cancel₀ _ hpos.ne', mul_comm, ← hmod]
  have hlow : (0 : ℚ) ≤ (c % m : ℕ) / m := div_nonneg (Nat.cast_nonneg _) hpos.le
  have hhigh : ((c % m : ℕ) : ℚ) / m < 1 := by
    rw [div_lt_one hpos]
    exact_mod_cast Nat.mod_lt c hm
  have hhalf : 2 * (c % m) < m ↔ ((c % m : ℕ) : ℚ) / m < 1 / 2 := by
    rw [div_lt_div_iff₀ hpos two_pos, one_mul, mul_comm]
    exact_mod_cast Iff.rfl
  have hhalf' : m < 2 * (c % m) ↔ 1 / 2 < ((c % m : ℕ) : ℚ) / m := by
    rw [div_lt_div_iff₀ two_pos hpos, one_mul, mul_comm]
    exact_mod_cast Iff.rfl
  rw [halfEvenDiv, hsplit]
  generalize c / m = q at *
  generalize ((c % m : ℕ) : ℚ) / m = r at *
  by_cases hbelow : 2 * (c % m) < m
  · rw [if_pos hbelow]
    left
    rw [Int.cast_natCast, add_sub_cancel_left, abs_of_nonneg hlow]
    exact hhalf.mp hbelow
  rw [if_neg hbelow]
  by_cases habove : m < 2 * (c % m)
  · rw [if_pos habove]
    left
    have hnear := hhalf'.mp habove
    rw [Int.natCast_add, Int.cast_add, Int.cast_natCast, abs_lt]
    constructor <;> push_cast <;> linarith
  -- halfway: the parity of the lower neighbour decides
  have hr : r = 1 / 2 :=
    le_antisymm (not_lt.mp fun h => habove (hhalf'.mpr h)) (not_lt.mp fun h => hbelow (hhalf.mpr h))
  rw [if_neg habove, hr]
  right
  by_cases heven : q % 2 = 0
  · rw [if_pos heven, Int.cast_natCast, add_sub_cancel_left]
    exact ⟨abs_of_pos (by norm_num), (Int.even_coe_nat q).mpr (Nat.even_iff.mpr heven)⟩
  · rw [if_neg heven]
    have hnext : (q : ℚ) + 1 / 2 - ((q + 1 : ℕ) : ℤ) = -(1 / 2) := by
      push_cast
      ring
    rw [hnext, abs_neg]
    refine ⟨abs_of_pos (by norm_num), (Int.even_coe_nat _).mpr ?_⟩
    exact Nat.even_iff.mpr (by omega)

/-! ## At a place -/

/-- Rounding at the place of `10 ^ place` leaves the integral part: the number is not rounded up
    to the next integer where the place is behind the point, it is not rounded up where the place
    is that of the units, and nothing is lost where the place is before it. -/
structure Keeps (x : ℚ) (place : ℤ) : Prop where
  behind : place < 0 → x + 10 ^ place / 2 < ⌊x⌋ + 1
  units : place = 0 → Nearest x ⌊x⌋
  before : 0 < place → (10 : ℤ) ^ place.toNat ∣ ⌊x⌋

theorem zpow_of_nonneg {place : ℤ} (h : 0 ≤ place) :
    (10 : ℚ) ^ place = ((10 ^ place.toNat : ℤ) : ℚ) := by
  conv => lhs; rw [← Int.toNat_of_nonneg h, zpow_natCast]
  push_cast
  rfl

/-- Behind the point. -/
theorem floor_behind {x : ℚ} {place n : ℤ} (h : Nearest (x / 10 ^ place) n) (hplace : place < 0) :
    ⌊(n : ℚ) * 10 ^ place⌋ = ⌊x⌋ ↔ x + 10 ^ place / 2 < ⌊x⌋ + 1 := by
  have hunit : (0 : ℚ) < 10 ^ place := zpow_pos (by norm_num) place
  -- as many units as make one
  obtain ⟨m, hm⟩ : ∃ m : ℤ, (m : ℚ) * 10 ^ place = 1 := by
    refine ⟨10 ^ (-place).toNat, ?_⟩
    rw [← zpow_of_nonneg (by omega), ← zpow_add₀ (by norm_num), neg_add_cancel, zpow_zero]
  have hmeven : Even m := by
    have hnext : (m : ℚ) = ((10 * 10 ^ (-place - 1).toNat : ℤ) : ℚ) := by
      have hpow := zpow_of_nonneg (show 0 ≤ -place - 1 by omega)
      push_cast at hpow ⊢
      rw [← hpow, ← zpow_one_add₀ (by norm_num), show 1 + (-place - 1) = -place by ring, zpow_neg]
      exact eq_inv_of_mul_eq_one_left hm
    have hint : m = 10 * 10 ^ (-place - 1).toNat := by exact_mod_cast hnext
    rw [hint]
    exact Even.mul_right (by decide) _
  have hscale : ∀ k : ℤ, ((k * m : ℤ) : ℚ) * 10 ^ place = k := by
    intro k
    rw [Int.cast_mul, mul_assoc, hm, mul_one]
  have hlow : ⌊x⌋ * m ≤ n := by
    refine h.le_of_le ?_
    rw [le_div_iff₀ hunit, hscale]
    exact Int.floor_le x
  have hhigh : (⌊x⌋ + 1) * m ≤ n ↔ ⌊x⌋ + 1 ≤ x + 10 ^ place / 2 := by
    rw [h.even_le_iff (hmeven.mul_left _), le_div_iff₀ hunit, sub_mul, hscale]
    push_cast
    constructor <;> intro hle <;> linarith
  have hvalue : (⌊x⌋ : ℚ) ≤ n * 10 ^ place := by
    rw [← hscale ⌊x⌋]
    exact mul_le_mul_of_nonneg_right (by exact_mod_cast hlow) hunit.le
  have hnext : (n : ℚ) * 10 ^ place < ⌊x⌋ + 1 ↔ n < (⌊x⌋ + 1) * m := by
    have hone : ((⌊x⌋ + 1 : ℤ) : ℚ) = ⌊x⌋ + 1 := by push_cast; rfl
    rw [← hone, ← hscale (⌊x⌋ + 1), mul_lt_mul_iff_left₀ hunit]
    exact_mod_cast Iff.rfl
  rw [Int.floor_eq_iff, hnext, ← not_le, hhigh, not_le]
  exact ⟨And.right, fun hlt => ⟨hvalue, hlt⟩⟩

/-- Before the point. -/
theorem floor_before {x : ℚ} {place n : ℤ} (h : Nearest (x / 10 ^ place) n) (hplace : 0 < place) :
    ⌊(n : ℚ) * 10 ^ place⌋ = ⌊x⌋ ↔ (10 : ℤ) ^ place.toNat ∣ ⌊x⌋ := by
  have hfloor : ⌊(n : ℚ) * 10 ^ place⌋ = n * 10 ^ place.toNat := by
    rw [zpow_of_nonneg hplace.le, ← Int.cast_mul, Int.floor_intCast]
  rw [hfloor]
  constructor
  · intro heq
    exact ⟨n, by rw [← heq, mul_comm]⟩
  · rintro ⟨t, ht⟩
    have hten : (10 : ℚ) ≤ 10 ^ place := by
      conv => lhs; rw [← zpow_one (10 : ℚ)]
      exact zpow_le_zpow_right₀ (by norm_num) (by omega)
    have hunit : (0 : ℚ) < 10 ^ place := by linarith
    have hfloor : (⌊x⌋ : ℚ) = t * 10 ^ place := by
      rw [zpow_of_nonneg hplace.le, ht]
      push_cast
      ring
    -- less than one is left over, of a place of ten or more
    have hnear : Nearest (x / 10 ^ place) t := by
      left
      have hrest : x / 10 ^ place - t = (x - ⌊x⌋) / 10 ^ place := by
        rw [hfloor, sub_div, mul_div_cancel_right₀ _ hunit.ne']
      have hlow := Int.floor_le x
      have hhigh := Int.lt_floor_add_one x
      rw [hrest, abs_of_nonneg (div_nonneg (by linarith) hunit.le), div_lt_iff₀ hunit]
      linarith
    rw [h.eq hnear, ht, mul_comm]

/-- **When rounding leaves the integral part.** -/
theorem floor_place_eq_iff {x : ℚ} {place n : ℤ} (h : Nearest (x / 10 ^ place) n) :
    ⌊(n : ℚ) * 10 ^ place⌋ = ⌊x⌋ ↔ Keeps x place := by
  rcases lt_trichotomy place 0 with hplace | hplace | hplace
  · rw [floor_behind h hplace]
    exact ⟨fun hlt => ⟨fun _ => hlt, fun heq => by omega, fun hlt => by omega⟩,
      fun hkeeps => hkeeps.behind hplace⟩
  · subst hplace
    rw [zpow_zero, div_one] at h
    rw [zpow_zero, mul_one, Int.floor_intCast]
    constructor
    · exact fun heq => ⟨fun hlt => by omega, fun _ => heq ▸ h, fun hlt => by omega⟩
    · exact fun hkeeps => h.eq (hkeeps.units rfl)
  · rw [floor_before h hplace]
    exact ⟨fun hdvd => ⟨fun hlt => by omega, fun heq => by omega, fun _ => hdvd⟩,
      fun hkeeps => hkeeps.before hplace⟩

end Rounding

import MandatedVaultFactory.RoundingProofs

/-!
# Decimal arithmetic

Decimal numbers with a coefficient and an exponent, as the General Decimal Arithmetic has them,
and their product in a context of bounded precision.

* **`Context.finalize`** — a result is rounded to the precision of the context, and overflows.
* **`finalize_spec`** — what is kept of it; **`toInt_finalize_iff`** — when its integral part is.
* **`overflows_iff`** — when it overflows. -/

namespace Decimals

open Rounding

/-! ## Numbers -/

inductive Decimal where
  | finite (negative : Bool) (coefficient : Nat) (exponent : ℤ)
  | infinity (negative : Bool)
  | nan (negative signaling : Bool) (payload : Nat)
deriving DecidableEq

/-- What an operation signals, of what is trapped. -/
inductive Signal where
  | invalidOperation | overflow
deriving DecidableEq

/-- A precision and the bounds of the adjusted exponents. -/
structure Context where
  prec : Nat
  emin : ℤ
  emax : ℤ
  prec_pos : 0 < prec

/-- The smallest exponent of a result. -/
def Context.etiny (ctx : Context) : ℤ := ctx.emin - (ctx.prec - 1)

/-- How many digits a coefficient has. -/
def digitCount (coefficient : Nat) : Nat := Nat.log 10 coefficient + 1

/-- How many of them a context drops. -/
def Context.dropped (ctx : Context) (coefficient : Nat) (exponent : ℤ) : Nat :=
  max (digitCount coefficient - ctx.prec) (ctx.etiny - exponent).toNat

/-- A result in a context: the coefficient is rounded half to even.  Where only nines were kept
    and they are rounded up it has a digit more, and ends in a zero. -/
def Context.finalize (ctx : Context) (negative : Bool) (coefficient : Nat) (exponent : ℤ) :
    Except Signal Decimal :=
  let k := ctx.dropped coefficient exponent
  let kept := halfEvenDiv coefficient (10 ^ k)
  if kept ≠ 0 ∧ ctx.emax < exponent + k + Nat.log 10 kept then .error .overflow
  else .ok (.finite negative kept (exponent + k))

/-- `x * y`. -/
def Context.mul (ctx : Context) (x y : Decimal) : Except Signal Decimal :=
  match x, y with
  | .finite n c e, .finite n' c' e' => ctx.finalize (n ^^ n') (c * c') (e + e')
  | .nan _ true _, _ | _, .nan _ true _ => .error .invalidOperation
  | .nan n false payload, _ | _, .nan n false payload => .ok (.nan n false payload)
  | .infinity n, .infinity n' => .ok (.infinity (n ^^ n'))
  | .infinity n, .finite n' c _ | .finite n' c _, .infinity n =>
      if c = 0 then .error .invalidOperation else .ok (.infinity (n ^^ n'))

/-- `x <= 0`. -/
def leZero : Decimal → Except Signal Bool
  | .finite negative coefficient _ => .ok (negative || coefficient == 0)
  | .infinity negative => .ok negative
  | .nan .. => .error .invalidOperation

/-- Why a number is no integer. -/
inductive IntError where
  | overflowError | valueError
deriving DecidableEq

/-- `int(x)`, towards zero. -/
def toInt : Decimal → Except IntError ℤ
  | .finite negative coefficient exponent =>
      let magnitude : Nat :=
        if 0 ≤ exponent then coefficient * 10 ^ exponent.toNat
        else coefficient / 10 ^ (-exponent).toNat
      .ok (if negative then -(magnitude : ℤ) else magnitude)
  | .infinity _ => .error .overflowError
  | .nan .. => .error .valueError

/-! ## Values -/

/-- The value without the sign. -/
def magnitude (coefficient : Nat) (exponent : ℤ) : ℚ := coefficient * 10 ^ exponent

/-- The number of a decimal, where it is one. -/
def Decimal.number : Decimal → Option ℚ
  | .finite negative coefficient exponent =>
      some (if negative then -magnitude coefficient exponent else magnitude coefficient exponent)
  | .infinity _ => none
  | .nan .. => none

theorem magnitude_pos {c : Nat} (hc : c ≠ 0) (e : ℤ) : 0 < magnitude c e :=
  mul_pos (by exact_mod_cast Nat.pos_of_ne_zero hc) (zpow_pos (by norm_num) e)

theorem magnitude_mul (c c' : Nat) (e e' : ℤ) :
    magnitude (c * c') (e + e') = magnitude c e * magnitude c' e' := by
  rw [magnitude, magnitude, magnitude, zpow_add₀ (by norm_num), Nat.cast_mul]
  ring

/-- The exponent of the first digit. -/
theorem log_magnitude {c : Nat} (hc : c ≠ 0) (e : ℤ) :
    Int.log 10 (magnitude c e) = Nat.log 10 c + e := by
  have hpos := magnitude_pos hc e
  have hten : ((10 : ℕ) : ℚ) = 10 := by norm_num
  have hunit : (0 : ℚ) < 10 ^ e := zpow_pos (by norm_num) e
  apply le_antisymm
  · rw [← Int.lt_add_one_iff, ← Int.lt_zpow_iff_log_lt (by norm_num) hpos, magnitude,
      show (Nat.log 10 c : ℤ) + e + 1 = (Nat.log 10 c + 1 : ℕ) + e by push_cast; ring,
      zpow_add₀ (by norm_num), zpow_natCast, hten]
    refine mul_lt_mul_of_pos_right ?_ hunit
    exact_mod_cast Nat.lt_pow_succ_log_self (by norm_num : 1 < 10) c
  · rw [← Int.zpow_le_iff_le_log (by norm_num) hpos, magnitude, zpow_add₀ (by norm_num),
      zpow_natCast, hten]
    refine mul_le_mul_of_nonneg_right ?_ hunit.le
    exact_mod_cast Nat.pow_log_le_self 10 hc

/-- The integral part of a positive number. -/
theorem toInt_finite (c : Nat) (e : ℤ) :
    toInt (.finite false c e) = .ok ⌊magnitude c e⌋ := by
  rw [toInt, magnitude]
  simp only [Bool.false_eq_true, if_false]
  by_cases he : 0 ≤ e
  · rw [if_pos he, zpow_of_nonneg he]
    have hint : (c : ℚ) * ((10 ^ e.toNat : ℤ) : ℚ) = ((c * 10 ^ e.toNat : ℤ) : ℚ) := by push_cast; rfl
    rw [hint, Int.floor_intCast]
    push_cast
    rfl
  · rw [if_neg he]
    have hdiv : (c : ℚ) * 10 ^ e = (c : ℚ) / ((10 ^ (-e).toNat : ℕ) : ℚ) := by
      have hpow := zpow_of_nonneg (show 0 ≤ -e by omega)
      push_cast at hpow ⊢
      rw [← hpow, zpow_neg, div_inv_eq_mul]
    rw [hdiv, Rat.floor_natCast_div_natCast]
    push_cast
    rfl

/-! ## Rounding in a context -/

/-- The place of the last digit that a context keeps of a number. -/
def Context.lastPlace (ctx : Context) (x : ℚ) : ℤ := max (Int.log 10 x - (ctx.prec - 1)) ctx.etiny

theorem add_dropped (ctx : Context) {c : Nat} (hc : c ≠ 0) (e : ℤ) :
    e + ctx.dropped c e = max e (ctx.lastPlace (magnitude c e)) := by
  rw [Context.lastPlace, log_magnitude hc, Context.dropped, digitCount]
  have hpos := ctx.prec_pos
  omega

/-- Without the digits that are dropped it is the nearest number at the last place. -/
theorem nearest_kept (ctx : Context) {c : Nat} (hc : c ≠ 0) (e : ℤ) :
    ∃ n : ℤ, Nearest (magnitude c e / 10 ^ ctx.lastPlace (magnitude c e)) n
      ∧ magnitude (halfEvenDiv c (10 ^ ctx.dropped c e)) (e + ctx.dropped c e)
        = n * 10 ^ ctx.lastPlace (magnitude c e) := by
  have hplace := add_dropped ctx hc e
  generalize ctx.lastPlace (magnitude c e) = place at *
  have hten : ∀ k : ℤ, (10 : ℚ) ^ k ≠ 0 := fun k => zpow_ne_zero k (by norm_num)
  rcases le_total place e with hle | hle
  · -- no digit is dropped
    rw [max_eq_left hle] at hplace
    have hzero : ctx.dropped c e = 0 := by omega
    have hone : halfEvenDiv c (10 ^ 0) = c := by simp [halfEvenDiv, Nat.mod_one]
    have hquot : magnitude c e / 10 ^ place = ((c * 10 ^ (e - place).toNat : ℤ) : ℚ) := by
      rw [magnitude, mul_div_assoc, ← zpow_sub₀ (by norm_num), zpow_of_nonneg (by omega)]
      push_cast
      rfl
    refine ⟨c * 10 ^ (e - place).toNat, ?_, ?_⟩
    · rw [hquot]
      exact nearest_intCast _
    · rw [hzero, hone, ← hquot, div_mul_cancel₀ _ (hten place)]
      simp
  · rw [max_eq_right hle] at hplace
    refine ⟨halfEvenDiv c (10 ^ ctx.dropped c e), ?_, ?_⟩
    · have hquot : magnitude c e / 10 ^ place = (c : ℚ) / (10 ^ ctx.dropped c e : ℕ) := by
        rw [magnitude, ← hplace, zpow_add₀ (by norm_num), zpow_natCast, Nat.cast_pow]
        field_simp
        norm_num
      rw [hquot]
      exact nearest_halfEvenDiv c (by positivity)
    · rw [hplace, magnitude, Int.cast_natCast]

/-- The test for an overflow compares with the bound of the context. -/
theorem beyond_iff (ctx : Context) (kept : Nat) (place : ℤ) :
    (kept ≠ 0 ∧ ctx.emax < place + Nat.log 10 kept)
      ↔ (10 : ℚ) ^ (ctx.emax + 1) ≤ magnitude kept place := by
  by_cases hkept : kept = 0
  · rw [hkept, magnitude, Nat.cast_zero, zero_mul]
    have hpos : (0 : ℚ) < 10 ^ (ctx.emax + 1) := zpow_pos (by norm_num) _
    exact ⟨fun h => absurd rfl h.1, fun h => absurd h hpos.not_ge⟩
  · have hlog := log_magnitude hkept place
    have hten : ((10 : ℕ) : ℚ) = 10 := by norm_num
    rw [← hten, Int.zpow_le_iff_le_log (by norm_num) (magnitude_pos hkept place), hlog]
    constructor
    · rintro ⟨_, hlt⟩
      omega
    · intro hle
      exact ⟨hkept, by omega⟩

/-- **What is kept of a result**: the nearest number at the last place. -/
theorem finalize_spec (ctx : Context) (negative : Bool) {c : Nat} (hc : c ≠ 0) (e : ℤ) :
    ∃ n : ℤ, Nearest (magnitude c e / 10 ^ ctx.lastPlace (magnitude c e)) n ∧
      if (10 : ℚ) ^ (ctx.emax + 1) ≤ n * 10 ^ ctx.lastPlace (magnitude c e) then
        ctx.finalize negative c e = .error .overflow
      else ∃ c' e', ctx.finalize negative c e = .ok (.finite negative c' e')
        ∧ magnitude c' e' = n * 10 ^ ctx.lastPlace (magnitude c e) := by
  obtain ⟨n, hn, heq⟩ := nearest_kept ctx hc e
  refine ⟨n, hn, ?_⟩
  rw [← heq, Context.finalize]
  generalize halfEvenDiv c (10 ^ ctx.dropped c e) = kept
  generalize e + ctx.dropped c e = place
  have hover := beyond_iff ctx kept place
  by_cases hbig : (10 : ℚ) ^ (ctx.emax + 1) ≤ magnitude kept place
  · rw [if_pos hbig]
    exact if_pos (hover.mpr hbig)
  · rw [if_neg hbig]
    exact ⟨kept, place, if_neg fun h => hbig (hover.mp h), rfl⟩

/-- **When the integral part is kept**: the number is in the range of the context, and rounding at
    the last place leaves its integral part. -/
theorem toInt_finalize_iff (ctx : Context) (hmax : -1 ≤ ctx.emax) {c : Nat} (hc : c ≠ 0) (e : ℤ) :
    (∃ d, ctx.finalize false c e = .ok d ∧ toInt d = .ok ⌊magnitude c e⌋)
      ↔ magnitude c e < 10 ^ (ctx.emax + 1)
        ∧ Keeps (magnitude c e) (ctx.lastPlace (magnitude c e)) := by
  obtain ⟨n, hn, hresult⟩ := finalize_spec ctx false hc e
  generalize ctx.lastPlace (magnitude c e) = place at *
  generalize magnitude c e = x at *
  -- the bound is an integer, so that a number and its integral part are below it together
  have hbound := zpow_of_nonneg (show 0 ≤ ctx.emax + 1 by omega)
  have hbelow : ∀ y : ℚ, y < 10 ^ (ctx.emax + 1) ↔ ⌊y⌋ < 10 ^ (ctx.emax + 1).toNat := by
    intro y
    rw [hbound, Int.floor_lt]
  rw [← floor_place_eq_iff hn]
  by_cases hbig : (10 : ℚ) ^ (ctx.emax + 1) ≤ n * 10 ^ place
  · rw [if_pos hbig] at hresult
    constructor
    · rintro ⟨d, hd, _⟩
      rw [hresult] at hd
      cases hd
    · rintro ⟨hlt, heq⟩
      rw [hbelow, ← heq, ← hbelow] at hlt
      exact absurd hbig hlt.not_ge
  · rw [if_neg hbig] at hresult
    obtain ⟨c', e', hd, hvalue⟩ := hresult
    have hint : toInt (.finite false c' e') = .ok ⌊(n : ℚ) * 10 ^ place⌋ := by
      rw [toInt_finite, hvalue]
    constructor
    · rintro ⟨d, hd', htoInt⟩
      obtain rfl : .finite false c' e' = d := Except.ok.inj (hd.symm.trans hd')
      have heq : ⌊(n : ℚ) * 10 ^ place⌋ = ⌊x⌋ := Except.ok.inj (hint.symm.trans htoInt)
      refine ⟨?_, heq⟩
      rw [hbelow, ← heq, ← hbelow]
      exact not_le.mp hbig
    · rintro ⟨_, heq⟩
      exact ⟨_, hd, hint.trans (congrArg Except.ok heq)⟩

/-- Rounding at a place does not pass a power of ten from that place on. -/
theorem rounded_le {x : ℚ} {n place k : ℤ} (hn : Nearest (x / 10 ^ place) n) (hk : place ≤ k)
    (hx : x ≤ 10 ^ k) : (n : ℚ) * 10 ^ place ≤ 10 ^ k := by
  have hten : (10 : ℚ) ≠ 0 := by norm_num
  have hunit : (0 : ℚ) < 10 ^ place := zpow_pos (by norm_num) _
  have hle : n ≤ 10 ^ (k - place).toNat := by
    refine hn.ge_of_ge ?_
    rw [← zpow_of_nonneg (by omega), div_le_iff₀ hunit, ← zpow_add₀ hten, sub_add_cancel]
    exact hx
  have hcast : (n : ℚ) ≤ 10 ^ (k - place) := by
    rw [zpow_of_nonneg (by omega)]
    exact_mod_cast hle
  calc (n : ℚ) * 10 ^ place ≤ 10 ^ (k - place) * 10 ^ place :=
        mul_le_mul_of_nonneg_right hcast hunit.le
    _ = 10 ^ k := by rw [← zpow_add₀ hten, sub_add_cancel]

theorem le_rounded {x : ℚ} {n place k : ℤ} (hn : Nearest (x / 10 ^ place) n) (hk : place ≤ k)
    (hx : 10 ^ k ≤ x) : (10 : ℚ) ^ k ≤ n * 10 ^ place := by
  have hten : (10 : ℚ) ≠ 0 := by norm_num
  have hunit : (0 : ℚ) < 10 ^ place := zpow_pos (by norm_num) _
  have hge : 10 ^ (k - place).toNat ≤ n := by
    refine hn.le_of_le ?_
    rw [← zpow_of_nonneg (by omega), le_div_iff₀ hunit, ← zpow_add₀ hten, sub_add_cancel]
    exact hx
  have hcast : (10 : ℚ) ^ (k - place) ≤ n := by
    rw [zpow_of_nonneg (by omega)]
    exact_mod_cast hge
  calc (10 : ℚ) ^ k = 10 ^ (k - place) * 10 ^ place := by rw [← zpow_add₀ hten, sub_add_cancel]
    _ ≤ n * 10 ^ place := mul_le_mul_of_nonneg_right hcast hunit.le

/-- It overflows if it is rounded to the bound or beyond. -/
theorem finalize_overflow_iff (ctx : Context) (negative : Bool) {c : Nat} (hc : c ≠ 0) (e : ℤ) :
    ∃ n : ℤ, Nearest (magnitude c e / 10 ^ ctx.lastPlace (magnitude c e)) n ∧
      (ctx.finalize negative c e = .error .overflow
        ↔ (10 : ℚ) ^ (ctx.emax + 1) ≤ n * 10 ^ ctx.lastPlace (magnitude c e)) := by
  obtain ⟨n, hn, hresult⟩ := finalize_spec ctx negative hc e
  refine ⟨n, hn, ?_⟩
  by_cases hbig : (10 : ℚ) ^ (ctx.emax + 1) ≤ n * 10 ^ ctx.lastPlace (magnitude c e)
  · rw [if_pos hbig] at hresult
    exact ⟨fun _ => hbig, fun _ => hresult⟩
  · rw [if_neg hbig] at hresult
    obtain ⟨c', e', hok, _⟩ := hresult
    rw [hok]
    constructor
    · intro h
      cases h
    · intro h
      exact absurd h hbig

/-- **When a result overflows**: from half a unit of the last place before the bound on. -/
theorem overflows_iff (ctx : Context) (hrange : ctx.emin ≤ ctx.emax) (negative : Bool) {c : Nat}
    (hc : c ≠ 0) (e : ℤ) :
    ctx.finalize negative c e = .error .overflow
      ↔ ((10 : ℚ) ^ ctx.prec - 1 / 2) * 10 ^ (ctx.emax + 1 - ctx.prec) ≤ magnitude c e := by
  have hten : (10 : ℚ) ≠ 0 := by norm_num
  have hprec := ctx.prec_pos
  obtain ⟨n, hn, hoverflow⟩ := finalize_overflow_iff ctx negative hc e
  rw [hoverflow]
  clear hoverflow
  have hpos := magnitude_pos hc e
  have hlog : (10 : ℚ) ^ Int.log 10 (magnitude c e) ≤ magnitude c e := by
    have hle := Int.zpow_log_le_self (b := 10) (by norm_num) hpos
    simpa using hle
  have hlog' : magnitude c e < 10 ^ (Int.log 10 (magnitude c e) + 1) := by
    have hlt := Int.lt_zpow_succ_log_self (b := 10) (by norm_num) (magnitude c e)
    simpa using hlt
  rw [Context.lastPlace] at hn ⊢
  generalize magnitude c e = x at *
  generalize Int.log 10 x = first at *
  have hmono : ∀ {a b : ℤ}, a ≤ b → (10 : ℚ) ^ a ≤ 10 ^ b := fun h =>
    zpow_le_zpow_right₀ (by norm_num) h
  have hsplit : (10 : ℚ) ^ ctx.prec * 10 ^ (ctx.emax + 1 - ctx.prec) = 10 ^ (ctx.emax + 1) := by
    rw [← zpow_natCast, ← zpow_add₀ hten, add_sub_cancel]
  have hunit : (0 : ℚ) < 10 ^ (ctx.emax + 1 - ctx.prec) := zpow_pos (by norm_num) _
  have htiny : ctx.etiny ≤ ctx.emax + 1 - ctx.prec := by
    rw [Context.etiny]
    omega
  rcases lt_trichotomy first ctx.emax with hfirst | hfirst | hfirst
  · -- far below
    have hx : x < 10 ^ ctx.emax := hlog'.trans_le (hmono (by omega))
    have hvalue := rounded_le hn (show max (first - (ctx.prec - 1)) ctx.etiny ≤ ctx.emax by omega)
      hx.le
    have hgap : (10 : ℚ) ^ (ctx.emax + 1) = 10 * 10 ^ ctx.emax := by
      rw [zpow_add₀ hten, zpow_one, mul_comm]
    have hemax : (0 : ℚ) < 10 ^ ctx.emax := zpow_pos (by norm_num) _
    have hlast : (10 : ℚ) ^ (ctx.emax + 1 - ctx.prec) ≤ 10 ^ ctx.emax := hmono (by omega)
    rw [sub_mul, hsplit, hgap]
    constructor
    · intro hle
      linarith
    · intro hle
      linarith
  · -- the digits that are kept may be rounded up to the bound
    rw [hfirst, max_eq_left (by omega), show ctx.emax - ((ctx.prec : ℤ) - 1)
      = ctx.emax + 1 - ctx.prec by ring] at hn ⊢
    have heven : Even ((10 : ℤ) ^ ctx.prec) :=
      (show Even (10 : ℤ) by decide).pow_of_ne_zero hprec.ne'
    rw [← hsplit, mul_le_mul_iff_left₀ hunit, ← le_div_iff₀ hunit]
    have hiff := hn.even_le_iff heven
    push_cast at hiff
    rw [← hiff]
    exact_mod_cast Iff.rfl
  · -- beyond it
    have hvalue := le_rounded hn (show max (first - (ctx.prec - 1)) ctx.etiny ≤ first by omega) hlog
    have hbound : (10 : ℚ) ^ (ctx.emax + 1) ≤ 10 ^ first := hmono (by omega)
    rw [sub_mul, hsplit]
    constructor
    · intro _
      linarith
    · intro _
      linarith

end Decimals

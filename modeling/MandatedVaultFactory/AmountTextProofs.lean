import MandatedVaultFactory.DecimalTextProofs

/-!
# Amounts as text

The amounts of a withdrawal and of a trade are given as text and turned into wei by
`_parse_amount_to_wei`, of which each service has its own.  The text is read exactly, and the
product with the number of wei in one is rounded to the precision of the default context.

* **`FundingService.parseAmountToWei`**, **`TradeService.parseAmountToWei`** — the code.
* **`exactWei_iff`** — when they give the wei that a text denotes, and refuse the rest.
* **`parseAmount_wei`** — the wei of an amount of eighteen decimals. -/

namespace Amounts

open Texts Decimals Rounding

/-! ## The code -/

/-- Why an amount is not parsed: what the function raises of its own, and what it lets through. -/
inductive Failure where
  | configError (message : Text)
  | signal (signal : Signal)
  | int (error : IntError)
deriving DecidableEq

/-- `DefaultContext` of `decimal`. -/
def defaultContext : Context where
  prec := 28
  emin := -999999
  emax := 999999
  prec_pos := by decide

/-- `Decimal(10) ** decimals`, of no more digits than the context has. -/
def tenTo (decimals : Nat) : Decimal := .finite false (10 ^ decimals) 0

/-- `except InvalidOperation as error: raise ConfigError(message) from error`. -/
def orConfigError (message : Text) : Signal → Failure
  | .invalidOperation => .configError message
  | .overflow => .signal .overflow

/-- The two functions but for the text of their error.  The numbers that can be read are those
    within the bounds, where there are any. -/
def parseAmount (bounds : Option Bounds) (digits : UnicodeDigits) (message rawAmount : Text)
    (decimals : Nat) : Except Failure ℤ := do
  let amount ← (ofText bounds digits rawAmount).mapError (orConfigError message)
  if ← (leZero amount).mapError Failure.signal then
    return 0
  let wei ← (defaultContext.mul amount (tenTo decimals)).mapError Failure.signal
  (toInt wei).mapError Failure.int

/-- `_parse_amount_to_wei` of the funding service. -/
def FundingService.parseAmountToWei (bounds : Option Bounds) (digits : UnicodeDigits)
    (rawAmount : Text) (decimals : Nat) : Except Failure ℤ :=
  parseAmount bounds digits "Withdrawal amount must be numeric.".toList rawAmount decimals

/-- `_parse_amount_to_wei` of the trade service. -/
def TradeService.parseAmountToWei (bounds : Option Bounds) (digits : UnicodeDigits)
    (rawAmount : Text) : Except Failure ℤ :=
  parseAmount bounds digits "Trade amount must be numeric.".toList rawAmount 18

/-! ## What it should be -/

/-- The wei of a text are the ones it denotes, and nothing that is no finite number passes. -/
structure ExactWei (digits : UnicodeDigits) (t : Text) (parsed : Except Failure ℤ) : Prop where
  positive : ∀ n : Numeral, Writes digits t n.text → 0 < n.value →
    parsed = .ok ⌊n.value * 10 ^ 18⌋
  notPositive : ∀ n : Numeral, Writes digits t n.text → n.value ≤ 0 → parsed = .ok 0
  other : (∀ n : Numeral, ¬ Writes digits t n.text) → ∃ message, parsed = .error (.configError message)

/-- A number of wei is in the range of the context, and rounding it to the precision of the
    context leaves its integral part. -/
structure Fits (wei : ℚ) : Prop where
  range : wei < 10 ^ (defaultContext.emax + 1)
  kept : Keeps wei (defaultContext.lastPlace wei)

/-- A text is no special value, and what it denotes fits. -/
structure FitsText (digits : UnicodeDigits) (t : Text) : Prop where
  noSpecial : ∀ s : Special, ¬ Writes digits t s.text
  fits : ∀ n : Numeral, Writes digits t n.text → 0 < n.value → Fits (n.value * 10 ^ 18)

/-! ## When it is -/

variable {digits : UnicodeDigits}

theorem value_pos_iff (n : Numeral) :
    0 < n.value ↔ n.negative = false ∧ n.coefficient ≠ 0 := by
  rw [Numeral.value]
  have hnonneg : 0 ≤ magnitude n.coefficient n.exponent :=
    mul_nonneg (Nat.cast_nonneg _) (zpow_pos (by norm_num) _).le
  cases n.negative with
  | true =>
      rw [if_pos rfl]
      constructor
      · intro h
        linarith
      · intro h
        exact absurd h.1 (by decide)
  | false =>
      rw [if_neg Bool.false_ne_true]
      constructor
      · intro h
        refine ⟨rfl, fun hzero => ?_⟩
        rw [hzero, magnitude, Nat.cast_zero, zero_mul] at h
        exact lt_irrefl _ h
      · exact fun h => magnitude_pos h.2 _

theorem value_of_pos {n : Numeral} (h : 0 < n.value) :
    n.value = magnitude n.coefficient n.exponent := by
  rw [Numeral.value, ((value_pos_iff n).mp h).1, if_neg Bool.false_ne_true]

/-- The wei, before they are rounded. -/
theorem wei_eq {n : Numeral} (h : 0 < n.value) (decimals : Nat) :
    magnitude (n.coefficient * 10 ^ decimals) n.exponent = n.value * 10 ^ decimals := by
  rw [value_of_pos h, ← add_zero n.exponent, magnitude_mul, add_zero]
  congr 1
  rw [magnitude, zpow_zero, mul_one]
  push_cast
  rfl

/-- What is done with a finite number. -/
theorem parseAmount_finite (message : Text) {bounds : Option Bounds} {t : Text} {n : Numeral}
    (hwrites : Writes digits t n.text) (hwithin : Within bounds n.coefficient n.exponent)
    (decimals : Nat) :
    parseAmount bounds digits message t decimals = (do
      if ← (leZero (.finite n.negative n.coefficient n.exponent)).mapError Failure.signal then
        return 0
      let wei ← (defaultContext.mul (.finite n.negative n.coefficient n.exponent)
        (tenTo decimals)).mapError Failure.signal
      (toInt wei).mapError Failure.int) := by
  rw [parseAmount, ofText_numeral digits hwrites hwithin]
  rfl

/-- What is done with a number beyond the bounds. -/
theorem parseAmount_beyond (message : Text) {bounds : Option Bounds} {t : Text} {n : Numeral}
    (hwrites : Writes digits t n.text) (hbeyond : ¬ Within bounds n.coefficient n.exponent)
    (decimals : Nat) :
    parseAmount bounds digits message t decimals = .error (.configError message) := by
  rw [parseAmount, ofText_beyond digits hwrites hbeyond]
  rfl

/-- A positive amount is multiplied and cut off. -/
theorem parseAmount_positive (message : Text) {bounds : Option Bounds} {t : Text} {n : Numeral}
    (hwrites : Writes digits t n.text) (hwithin : Within bounds n.coefficient n.exponent)
    (hpos : 0 < n.value) (decimals : Nat) :
    parseAmount bounds digits message t decimals
      = match defaultContext.finalize false (n.coefficient * 10 ^ decimals) n.exponent with
        | .ok wei => (toInt wei).mapError Failure.int
        | .error signal => .error (.signal signal) := by
  obtain ⟨hsign, hcoefficient⟩ := (value_pos_iff n).mp hpos
  have hle : leZero (.finite n.negative n.coefficient n.exponent) = .ok false := by
    rw [leZero, hsign, beq_false_of_ne hcoefficient]
    rfl
  have hmul : defaultContext.mul (.finite n.negative n.coefficient n.exponent) (tenTo decimals)
      = defaultContext.finalize false (n.coefficient * 10 ^ decimals) n.exponent := by
    rw [tenTo, Context.mul, hsign, add_zero]
    rfl
  rw [parseAmount_finite message hwrites hwithin, hle, hmul]
  cases defaultContext.finalize false (n.coefficient * 10 ^ decimals) n.exponent <;> rfl

/-- **The floor of the wei**, exactly where they fit. -/
theorem parseAmount_floor_iff (message : Text) {bounds : Option Bounds} {t : Text} {n : Numeral}
    (hwrites : Writes digits t n.text) (hwithin : Within bounds n.coefficient n.exponent)
    (hpos : 0 < n.value) :
    parseAmount bounds digits message t 18 = .ok ⌊n.value * 10 ^ 18⌋ ↔ Fits (n.value * 10 ^ 18) := by
  have hne : n.coefficient * 10 ^ 18 ≠ 0 :=
    mul_ne_zero ((value_pos_iff n).mp hpos).2 (by norm_num)
  have hiff := toInt_finalize_iff defaultContext (by decide) hne n.exponent
  rw [wei_eq hpos] at hiff
  have hfits : Fits (n.value * 10 ^ 18) ↔ n.value * 10 ^ 18 < 10 ^ (defaultContext.emax + 1)
      ∧ Keeps (n.value * 10 ^ 18) (defaultContext.lastPlace (n.value * 10 ^ 18)) :=
    ⟨fun h => ⟨h.range, h.kept⟩, fun h => ⟨h.1, h.2⟩⟩
  rw [hfits, ← hiff, parseAmount_positive message hwrites hwithin hpos]
  cases defaultContext.finalize false (n.coefficient * 10 ^ 18) n.exponent with
  | error signal =>
      constructor
      · intro h
        cases h
      · rintro ⟨d, hd, _⟩
        cases hd
  | ok wei =>
      constructor
      · intro h
        have h : (toInt wei).mapError Failure.int = .ok ⌊n.value * 10 ^ 18⌋ := h
        refine ⟨wei, rfl, ?_⟩
        cases hint : toInt wei with
        | error error =>
            rw [hint] at h
            cases h
        | ok m =>
            rw [hint] at h
            exact congrArg Except.ok (Except.ok.inj h)
      · rintro ⟨d, hd, hint⟩
        obtain rfl : wei = d := Except.ok.inj hd
        show (toInt wei).mapError Failure.int = _
        rw [hint]
        rfl

theorem parseAmount_notPositive (message : Text) {bounds : Option Bounds} {t : Text} {n : Numeral}
    (hwrites : Writes digits t n.text) (hwithin : Within bounds n.coefficient n.exponent)
    (hle : n.value ≤ 0) (decimals : Nat) :
    parseAmount bounds digits message t decimals = .ok 0 := by
  have hnot : leZero (.finite n.negative n.coefficient n.exponent) = .ok true := by
    rw [leZero]
    congr 1
    by_contra hfalse
    rw [Bool.not_eq_true, Bool.or_eq_false_iff, beq_eq_false_iff_ne] at hfalse
    exact absurd ((value_pos_iff n).mpr hfalse) hle.not_gt
  rw [parseAmount_finite message hwrites hwithin, hnot]
  rfl

/-- A special value is let through, or taken for zero. -/
theorem parseAmount_special (message : Text) {t : Text} {s : Special}
    (hwrites : Writes digits t s.text) :
    ¬ ∃ told, parseAmount none digits message t 18 = .error (.configError told) := by
  obtain ⟨d, hd, hspecial⟩ := ofText_special digits hwrites
  rintro ⟨told, h⟩
  rw [parseAmount, hd] at h
  cases d with
  | finite => exact hspecial
  | infinity negative => cases negative <;> cases h
  | nan negative signaling payload => cases h

/-- The function does as it should for a text. -/
theorem exactWei_parseAmount_iff (message t : Text) :
    ExactWei digits t (parseAmount none digits message t 18) ↔ FitsText digits t := by
  constructor
  · intro h
    refine ⟨fun s hwrites => ?_, fun n hwrites hpos => ?_⟩
    · refine parseAmount_special message hwrites (h.other fun n hnumeral => ?_)
      -- a text is not both
      obtain ⟨d, hd, hspecial⟩ := ofText_special digits hwrites
      rw [ofText_numeral digits hnumeral (within_none _ _)] at hd
      exact (Except.ok.inj hd ▸ hspecial : IsSpecial (.finite ..))
    · exact (parseAmount_floor_iff message hwrites (within_none _ _) hpos).mp
        (h.positive n hwrites hpos)
  · intro h
    refine ⟨fun n hwrites hpos => ?_, fun n hwrites hle => ?_, fun hnone => ?_⟩
    · exact (parseAmount_floor_iff message hwrites (within_none _ _) hpos).mpr
        (h.fits n hwrites hpos)
    · exact parseAmount_notPositive message hwrites (within_none _ _) hle 18
    · rcases ofText_cases digits none t with ⟨n, hn⟩ | ⟨s, hs⟩ | herror
      · exact absurd hn (hnone n)
      · exact absurd hs (h.noSpecial s)
      · refine ⟨message, ?_⟩
        rw [parseAmount, herror]
        rfl

/-- **When the wei are exact**, for numbers that are read whatever their size: the text is no
    special value, and what it denotes fits. -/
theorem exactWei_iff (digits : UnicodeDigits) (t : Text) :
    ExactWei digits t (FundingService.parseAmountToWei none digits t 18)
        ∧ ExactWei digits t (TradeService.parseAmountToWei none digits t)
      ↔ FitsText digits t := by
  rw [FundingService.parseAmountToWei, TradeService.parseAmountToWei, exactWei_parseAmount_iff,
    exactWei_parseAmount_iff, and_self]

/-! ## Eighteen decimals -/

/-- A number of wei, rounded to the precision of the context. -/
def roundedWei (n : Nat) : Nat :=
  halfEvenDiv n (10 ^ (digitCount n - defaultContext.prec))
    * 10 ^ (digitCount n - defaultContext.prec)

/-- What the context keeps of a whole number. -/
theorem kept_eq_roundedWei {n : Nat} {k : ℤ}
    (h : Nearest ((n : ℚ) / 10 ^ defaultContext.lastPlace n) k) :
    (k : ℚ) * 10 ^ defaultContext.lastPlace n = ((roundedWei n : ℤ) : ℚ) := by
  have hplace : defaultContext.lastPlace n = max ((Nat.log 10 n : ℤ) - 27) (-1000026) := by
    rw [Context.lastPlace, Int.log_natCast]
    rfl
  have hdigits : digitCount n - defaultContext.prec = Nat.log 10 n + 1 - 28 := rfl
  rw [hplace] at h ⊢
  rw [roundedWei, hdigits]
  rcases le_or_gt 27 (Nat.log 10 n) with hlong | hshort
  · have hnat : max ((Nat.log 10 n : ℤ) - 27) (-1000026) = ((Nat.log 10 n + 1 - 28 : ℕ) : ℤ) := by
      omega
    have hten : (10 : ℚ) ^ (Nat.log 10 n + 1 - 28) = ((10 ^ (Nat.log 10 n + 1 - 28) : ℕ) : ℚ) := by
      push_cast
      rfl
    rw [hnat, zpow_natCast, hten] at h ⊢
    rw [h.eq (nearest_halfEvenDiv n (by positivity))]
    push_cast
    rfl
  · -- the last place is behind the point, so that nothing is lost
    have hneg : max ((Nat.log 10 n : ℤ) - 27) (-1000026) < 0 := by omega
    have hzero : Nat.log 10 n + 1 - 28 = 0 := by omega
    have hone : halfEvenDiv n (10 ^ 0) = n := by simp [halfEvenDiv, Nat.mod_one]
    generalize max ((Nat.log 10 n : ℤ) - 27) (-1000026) = place at *
    have hunits : (n : ℚ) / 10 ^ place = ((n * 10 ^ (-place).toNat : ℤ) : ℚ) := by
      rw [div_eq_mul_inv, ← zpow_neg, zpow_of_nonneg (by omega)]
      push_cast
      rfl
    rw [hunits] at h
    rw [h.eq (nearest_intCast _), ← hunits, div_mul_cancel₀ _ (zpow_ne_zero _ (by norm_num)),
      hzero, hone, pow_zero, mul_one, Int.cast_natCast]

/-- **The wei of an amount of eighteen decimals**, where it is parsed. -/
theorem parseAmount_wei (message : Text) {bounds : Option Bounds} {t : Text} {num : Numeral}
    {n : Nat} {m : ℤ} (hwrites : Writes digits t num.text) (hvalue : num.value = n / 10 ^ 18)
    (hpos : 0 < num.value) (h : parseAmount bounds digits message t 18 = .ok m) :
    m = roundedWei n := by
  by_cases hwithin : Within bounds num.coefficient num.exponent
  · have hne : num.coefficient * 10 ^ 18 ≠ 0 :=
      mul_ne_zero ((value_pos_iff num).mp hpos).2 (by norm_num)
    have hwei : magnitude (num.coefficient * 10 ^ 18) num.exponent = n := by
      rw [wei_eq hpos, hvalue, div_mul_cancel₀ _ (by norm_num)]
    obtain ⟨k, hk, hresult⟩ := finalize_spec defaultContext false hne num.exponent
    rw [hwei] at hk hresult
    rw [parseAmount_positive message hwrites hwithin hpos] at h
    by_cases hbig : (10 : ℚ) ^ (defaultContext.emax + 1) ≤ k * 10 ^ defaultContext.lastPlace n
    · rw [if_pos hbig] at hresult
      rw [hresult] at h
      cases h
    · rw [if_neg hbig] at hresult
      obtain ⟨c, e, hfinite, hkept⟩ := hresult
      rw [hfinite] at h
      have h : (toInt (.finite false c e)).mapError Failure.int = .ok m := h
      rw [toInt_finite, hkept, kept_eq_roundedWei hk, Int.floor_intCast] at h
      exact (Except.ok.inj h).symm
  · rw [parseAmount_beyond message hwrites hwithin] at h
    cases h

/-- Up to twenty-eight digits nothing is rounded. -/
theorem roundedWei_of_lt {n : Nat} (h : n < 10 ^ 28) : roundedWei n = n := by
  have hlog : Nat.log 10 n < 28 := by
    by_cases hzero : n = 0
    · rw [hzero]
      decide
    · exact Nat.log_lt_of_lt_pow hzero h
  have hnone : digitCount n - defaultContext.prec = 0 := by
    show Nat.log 10 n + 1 - 28 = 0
    omega
  rw [roundedWei, hnone]
  simp [halfEvenDiv, Nat.mod_one]

/-- Rounding changes no more than the twenty-eighth digit. -/
theorem abs_roundedWei_sub_le {n : Nat} (hn : 0 < n) :
    |(roundedWei n : ℚ) - n| ≤ n / 10 ^ 27 := by
  rcases lt_or_ge n (10 ^ 28) with hshort | hlong
  · rw [roundedWei_of_lt hshort, sub_self, abs_zero]
    positivity
  have hlog : 28 ≤ Nat.log 10 n := Nat.le_log_of_pow_le (by norm_num) hlong
  obtain ⟨p, hp⟩ : ∃ p, p + 27 = Nat.log 10 n := ⟨Nat.log 10 n - 27, by omega⟩
  have hdigits : digitCount n - defaultContext.prec = p := by
    show Nat.log 10 n + 1 - 28 = p
    omega
  have hunit : (0 : ℚ) < 10 ^ p := by positivity
  have hnear := (nearest_halfEvenDiv n (show 0 < 10 ^ p by positivity)).abs_sub_le
  -- the last place is that of the twenty-eighth digit
  have hplace : (10 : ℚ) ^ p ≤ n / 10 ^ 27 := by
    rw [le_div_iff₀ (by norm_num), ← pow_add, hp]
    exact_mod_cast Nat.pow_log_le_self 10 hn.ne'
  rw [roundedWei, hdigits]
  generalize halfEvenDiv n (10 ^ p) = k at *
  push_cast at hnear ⊢
  generalize (10 : ℚ) ^ p = unit at *
  have hscale : (k : ℚ) * unit - n = -((n / unit - k) * unit) := by
    rw [sub_mul, div_mul_cancel₀ _ hunit.ne']
    ring
  rw [hscale, abs_neg, abs_mul, abs_of_pos hunit]
  calc |(n : ℚ) / unit - k| * unit ≤ 1 / 2 * unit := mul_le_mul_of_nonneg_right hnear hunit.le
    _ ≤ unit := by linarith
    _ ≤ n / 10 ^ 27 := hplace

/-- Digits in ASCII only. -/
def asciiDigits : UnicodeDigits where
  toDecimal _ := none
  lt := fun _ _ h => nomatch h

/-- `10`. -/
def ten : Numeral where
  sign := none
  whole := ['1', '0']
  point := false
  frac := []
  exp := none
  wholeDigits := List.all_eq_true.mp rfl
  fracDigits := List.forall_mem_nil _
  ne_nil := List.cons_ne_nil _ _
  noPoint _ := rfl

/-- `NaN` is no number, and it is not refused as one: its comparison with zero is. -/
theorem not_exactWei_nan :
    ¬ ∀ (digits : UnicodeDigits) (t : Text),
      ExactWei digits t (FundingService.parseAmountToWei none digits t 18)
        ∧ ExactWei digits t (TradeService.parseAmountToWei none digits t) := by
  intro hall
  have hnan : ofText none asciiDigits "NaN".toList = .ok (.nan false false 0) := rfl
  obtain ⟨message, h⟩ := (hall asciiDigits "NaN".toList).1.other fun n hwrites => by
    rw [ofText_numeral asciiDigits hwrites (within_none _ _)] at hnan
    cases hnan
  cases h

end Amounts

import MandatedVaultFactory.LiveOrdersProofs
import Mathlib.Tactic.FieldSimp
import Mathlib.Tactic.Positivity

/-!
# What the amount of a buy means

The amount is USDT: what is paid at most, what the account has to cover, and what the record says
the position has cost.  A market order takes it so; a limit order takes it as a number of shares.

* **`prepare_amounts`** — the amounts of an order that is signed, as the SDK answered.
* **`meansUsdt_iff`** — what is paid is what was said exactly for a limit order at a price of one,
  and for a market order that spends everything, of amounts that are not rounded up to wei. -/

namespace Predict

open Texts Json

variable {floats : Floats}

/-! ## What the SDK answers -/

/-- The helpers of the SDK: a limit order buys the quantity and pays its price, rounded down, and a
    market order pays no more than the value. -/
structure OrderBuilder.Exact (builder : OrderBuilder) : Prop where
  limit : ∀ price quantity amounts, 0 ≤ price → 0 ≤ quantity →
    builder.getLimitOrderAmounts price quantity = some amounts →
    (amounts.makerAmount : Int) = price * quantity / 10 ^ 18 ∧
      (amounts.takerAmount : Int) = quantity
  market : ∀ input levels amounts, 0 ≤ input.valueWei →
    builder.walkAsks input levels = some amounts → (amounts.makerAmount : Int) ≤ input.valueWei

/-- The book of a market, from the replies alone. -/
def orderbookAnswer (x : Exchange floats) (svc : Service floats) (marketId : Text) :
    Except Failure OrderBookRecord :=
  (readFinal (x.attempts (.orderbook marketId)) svc.client.retryAttempts 0).bind fun payload =>
    ofOption .invalidRecord (svc.validateOrderbook (extractObject payload [bookKey, dataKey]))

/-- The amounts of a market order, from the replies and the SDK. -/
def marketAnswer (x : Exchange floats) (svc : Service floats) (builder : OrderBuilder)
    (req : BuyRequest) (amountWei : Int) : Except Failure OrderAmounts :=
  (orderbookAnswer x svc req.marketId).bind fun orderbook =>
    ofOption .sdk (marketOrderAmounts builder.walkAsks amountWei req.slippageBps orderbook)

variable {x : Exchange floats} {svc : Service floats}

theorem getOrderbook_eq (marketId : Text) (net : Net) :
    getOrderbook x svc marketId net = (orderbookAnswer x svc marketId, net) :=
  bind_ofExcept (requestJson_plain (plain_orderbook marketId) net) _

theorem orderAmounts_market {req : BuyRequest} (h : req.limitPrice = none)
    (builder : OrderBuilder) (amountWei : Int) (net : Net) :
    orderAmounts x svc builder req amountWei net
      = (marketAnswer x svc builder req amountWei, net) := by
  rw [orderAmounts, h]
  exact bind_ofExcept (getOrderbook_eq req.marketId net) _

/-- **The amounts of an order that is signed.** -/
theorem prepare_amounts {req : BuyRequest} {net net' : Net} {prepared : Prepared}
    (h : prepare x svc req net = (.ok prepared, net')) :
    ∃ builder amountWei, svc.wallet.builder = some builder ∧
      amountInWei svc req.amountUsdt = .ok amountWei ∧ 0 < amountWei ∧
      match req.limitPrice with
      | some price => builder.getLimitOrderAmounts (truncate (price * 10 ^ 18)) amountWei
          = some prepared.amounts
      | none => marketAnswer x svc builder req amountWei = .ok prepared.amounts := by
  obtain ⟨checked, net₁, hcheck, h⟩ := Api.of_bind_ok h
  obtain ⟨market, net₂, _, h⟩ := Api.of_bind_ok h
  obtain ⟨outcome, net₃, _, h⟩ := Api.of_bind_ok h
  obtain ⟨amounts, net₄, hamounts, h⟩ := Api.of_bind_ok h
  obtain ⟨_, net₅, _, h⟩ := Api.of_bind_ok h
  obtain ⟨order, net₆, _, h⟩ := Api.of_bind_ok h
  obtain ⟨_, net₇, _, h⟩ := Api.of_bind_ok h
  cases h
  obtain ⟨hbuilder, hwei, hpos⟩ := checkRequest_ok (of_ofExcept_ok hcheck)
  refine ⟨checked.1, checked.2, hbuilder, hwei, hpos, ?_⟩
  cases hprice : req.limitPrice with
  | some price =>
      rw [orderAmounts, hprice] at hamounts
      have hsdk := of_ofExcept_ok hamounts
      cases hanswer : checked.1.getLimitOrderAmounts (truncate (price * 10 ^ 18)) checked.2 with
      | none =>
          rw [hanswer] at hsdk
          cases hsdk
      | some answer =>
          rw [hanswer] at hsdk
          cases hsdk
          exact hanswer
  | none =>
      rw [orderAmounts_market hprice] at hamounts
      exact congrArg Prod.fst hamounts

/-! ## What the amount means -/

/-- The USDT that an order pays. -/
def OrderAmounts.usdt (amounts : OrderAmounts) : ℚ := amounts.makerAmount / 10 ^ 18

/-- What it pays for each share. -/
def OrderAmounts.perShare (amounts : OrderAmounts) : ℚ := amounts.makerAmount / amounts.takerAmount

/-- **The amount means USDT**: no more is paid, the account has to cover what is paid, and the
    record says what is paid, twice, up to the rounding of doubles. -/
structure MeansUsdt (svc : Service floats) (req : BuyRequest) (prepared : Prepared)
    (amount : ℚ) : Prop where
  paid : (prepared.amounts.makerAmount : ℚ) ≤ amount * 10 ^ 18
  gate : ∀ amountWei balance, amountInWei svc req.amountUsdt = .ok amountWei →
    (overlayGate svc.mcp balance amountWei = .ok () ↔
      (prepared.amounts.makerAmount : Int) ≤ balance)
  recorded : ∀ placed : Placed floats, placed.prepared = prepared →
    ∃ position notional, recordOf svc req placed = .ok position ∧
      position.notionalUsdt = some notional ∧
      |notional - prepared.amounts.usdt| ≤ prepared.amounts.usdt / 2 ^ 50 ∧
      |position.entryPrice * position.quantityWei / 10 ^ 18 - prepared.amounts.usdt|
        ≤ Doubles.loss prepared.amounts.perShare * position.quantityWei / 10 ^ 18

/-- A number has a double. -/
def HasDouble (x : ℚ) : Prop := ∃ d, Doubles.double x = some d

/-- The SDK spends all of a value on the asks of a book, for something, at a price that has a
    double. -/
def Spends (builder : OrderBuilder) (value : MarketHelperValueInput) (asks : List Level) : Prop :=
  ∃ amounts, builder.walkAsks value asks = some amounts ∧
    (amounts.makerAmount : Int) = value.valueWei ∧ amounts.takerAmount ≠ 0 ∧
    HasDouble amounts.perShare

/-- A limit order at a price of one; a market order that the book of the market takes whole. -/
def SpendsAll (x : Exchange floats) (svc : Service floats) (builder : OrderBuilder)
    (req : BuyRequest) (amountWei : Int) : Prop :=
  match req.limitPrice with
  | some price => price = 1
  | none => ∃ orderbook book, orderbookAnswer x svc req.marketId = .ok orderbook ∧
      orderbookRecordToSdkBook orderbook = some book ∧
      Spends builder { valueWei := amountWei, slippageBps := req.slippageBps.getD 0 } book.asks

/-- An amount of so many wei is not rounded up to wei, and it has a double. -/
structure KeepsAmount (n : Nat) : Prop where
  wei : Amounts.roundedWei n ≤ n
  double : HasDouble ((n : ℚ) / 10 ^ 18)

theorem quantityWei_positionOf (svc : Service floats) (req : BuyRequest) (placed : Placed floats)
    (entryPrice : ℚ) (notionalUsdt : Option ℚ) :
    (positionOf svc req placed entryPrice notionalUsdt).quantityWei
      = placed.prepared.amounts.takerAmount :=
  congrArg (Option.getD · 0) (readDecimal_decimal placed.prepared.amounts.takerAmount)

/-- The entry price of an order of something. -/
theorem entryPriceOf_of_taker {amounts : OrderAmounts} {entryPrice : ℚ}
    (h : entryPriceOf amounts = .ok entryPrice) (htaker : amounts.takerAmount ≠ 0) :
    Doubles.shown amounts.perShare = some entryPrice := by
  rw [entryPriceOf, if_neg htaker] at h
  exact of_ofOption_ok h

/-- What a record says was paid for each share, times the shares, is what was paid. -/
theorem abs_cost_sub_le {amounts : OrderAmounts} {entryPrice : ℚ} (htaker : amounts.takerAmount ≠ 0)
    (h : Doubles.shown amounts.perShare = some entryPrice) :
    |entryPrice * amounts.takerAmount / 10 ^ 18 - amounts.usdt|
      ≤ Doubles.loss amounts.perShare * amounts.takerAmount / 10 ^ 18 := by
  have hpos : (0 : ℚ) < amounts.takerAmount := Nat.cast_pos.mpr (Nat.pos_of_ne_zero htaker)
  have hscale : entryPrice * amounts.takerAmount / 10 ^ 18 - amounts.usdt
      = (entryPrice - amounts.perShare) * amounts.takerAmount / 10 ^ 18 := by
    rw [OrderAmounts.usdt, OrderAmounts.perShare, sub_mul, div_mul_cancel₀ _ hpos.ne', sub_div]
  rw [hscale, abs_div, abs_mul, abs_of_pos hpos, abs_of_pos (by norm_num : (0 : ℚ) < 10 ^ 18)]
  exact div_le_div_of_nonneg_right
    (mul_le_mul_of_nonneg_right (Doubles.abs_shown_sub_le h) hpos.le) (by norm_num)

/-- The double of an amount is near its wei. -/
theorem abs_notional_sub_le {n : Nat} (hn : 0 < n) {amount notional rounded : ℚ}
    (hamount : amount = n / 10 ^ 18) (hrounded : rounded = Amounts.roundedWei n / 10 ^ 18)
    (h : Doubles.shown amount = some notional) : |notional - rounded| ≤ rounded / 2 ^ 50 := by
  have hone : (1 : ℚ) ≤ n := by exact_mod_cast hn
  have hleast : 1 / 10 ^ 18 ≤ amount := by
    rw [hamount]
    exact div_le_div_of_nonneg_right hone (by norm_num)
  have hdouble := (Doubles.abs_shown_sub_le h).trans (Doubles.loss_le hleast)
  have hwei : |amount - rounded| ≤ amount / 10 ^ 27 := by
    rw [hamount, hrounded, abs_sub_comm, ← sub_div, abs_div,
      abs_of_pos (by norm_num : (0 : ℚ) < 10 ^ 18), div_right_comm]
    exact div_le_div_of_nonneg_right (Amounts.abs_roundedWei_sub_le hn) (by norm_num)
  have htriangle := abs_sub_le notional amount rounded
  have hlower := (abs_le.mp hwei).2
  norm_num at hdouble hwei hlower hleast ⊢
  linarith

/-- A number of wei is told by what it covers. -/
theorem eq_of_covers {m n : Int} (h : ∀ balance, m ≤ balance ↔ n ≤ balance) : m = n :=
  le_antisymm ((h n).mpr le_rfl) ((h m).mp le_rfl)

/-- A share of a price, rounded down, is the whole exactly for a price of one. -/
theorem limit_maker_eq_iff {price quantity : Int} (hle : price ≤ 10 ^ 18) (hquantity : 0 < quantity) :
    price * quantity / 10 ^ 18 = quantity ↔ price = 10 ^ 18 := by
  constructor
  · intro hmaker
    have hmul : quantity * 10 ^ 18 ≤ price * quantity := by
      rw [← Int.le_ediv_iff_mul_le (by norm_num), hmaker]
    rw [mul_comm price] at hmul
    exact le_antisymm hle (le_of_mul_le_mul_left hmul hquantity)
  · rintro rfl
    exact Int.mul_ediv_cancel_left quantity (by norm_num)

theorem truncate_wei (n : Int) : truncate ((n : ℚ) / 10 ^ 18 * 10 ^ 18) = n := by
  have hscale : (10 : ℚ) ^ 18 ≠ 0 := by positivity
  rw [div_mul_cancel₀ _ hscale, truncate, Int.floor_intCast, Int.ceil_intCast, ite_self]

/-- A request whose amount, a number of eighteen decimals, has been read in both ways. -/
structure Reads (svc : Service floats) (req : BuyRequest) (n : Nat) : Prop where
  wei : amountInWei svc req.amountUsdt = .ok (Amounts.roundedWei n : Int)
  float : Decimals.readFloat svc.digits req.amountUsdt = some (some ((n : ℚ) / 10 ^ 18))
  wei_pos : 0 < Amounts.roundedWei n
  pos : 0 < n

/-- Where the amount is parsed, and `float` reads it, both read the number that it denotes. -/
theorem reads_of_amountInWei {req : BuyRequest} {num : Decimals.Numeral} {n : Nat}
    {amountWei : Int} (hamount : Decimals.Writes svc.digits req.amountUsdt num.text)
    (hvalue : num.value = n / 10 ^ 18)
    (hfloat : Decimals.readFloat svc.digits req.amountUsdt ≠ none)
    (hwei : amountInWei svc req.amountUsdt = .ok amountWei) (hpos : 0 < amountWei) :
    Reads svc req n ∧ amountWei = Amounts.roundedWei n := by
  obtain ⟨number, hnumber⟩ := Option.ne_none_iff_exists'.mp hfloat
  have hparse : Amounts.TradeService.parseAmountToWei (some Decimals.libraryBounds) svc.digits
      req.amountUsdt = .ok amountWei := by
    rw [amountInWei] at hwei
    cases hparse : Amounts.TradeService.parseAmountToWei (some Decimals.libraryBounds) svc.digits
        req.amountUsdt with
    | error failure =>
        rw [hparse] at hwei
        cases hwei
    | ok parsed =>
        rw [hparse] at hwei
        exact congrArg Except.ok (Except.ok.inj hwei)
  have hread := Decimals.ofText_writes svc.digits (some Decimals.libraryBounds) hamount
  by_cases hwithin : Decimals.Within (some Decimals.libraryBounds) num.coefficient num.exponent
  · have hnum : 0 < num.value := by
      by_contra hle
      have hzero := Amounts.parseAmount_notPositive "Trade amount must be numeric.".toList hamount
        hwithin (not_lt.mp hle) 18
      have hsame : amountWei = 0 := Except.ok.inj (hparse.symm.trans hzero)
      exact absurd hpos (by rw [hsame]; exact lt_irrefl 0)
    obtain rfl : amountWei = Amounts.roundedWei n :=
      Amounts.parseAmount_wei _ hamount hvalue hnum hparse
    have hn : 0 < n := by
      by_contra hzero
      rw [hvalue, Nat.eq_zero_of_not_pos hzero, Nat.cast_zero, zero_div] at hnum
      exact lt_irrefl _ hnum
    have hsame : some num.value = number :=
      Decimals.number_of_readFloat hnumber (hread.trans (if_pos hwithin))
    exact ⟨⟨hwei, hnumber.trans (by rw [← hsame, hvalue]), by exact_mod_cast hpos, hn⟩, rfl⟩
  · rw [Amounts.TradeService.parseAmountToWei,
      Amounts.parseAmount_beyond _ hamount hwithin] at hparse
    cases hparse

/-- A market order is what the SDK makes of the book. -/
theorem walk_of_marketAnswer {builder : OrderBuilder} {req : BuyRequest} {amountWei : Int}
    {amounts : OrderAmounts} (h : marketAnswer x svc builder req amountWei = .ok amounts) :
    ∃ orderbook book, orderbookAnswer x svc req.marketId = .ok orderbook ∧
      orderbookRecordToSdkBook orderbook = some book ∧
      builder.walkAsks { valueWei := amountWei, slippageBps := req.slippageBps.getD 0 } book.asks
        = some amounts := by
  obtain ⟨orderbook, hbook, h⟩ := bind_ok_iff.mp h
  obtain ⟨book, hsdk, hwalk⟩ := Option.bind_eq_some_iff.mp (of_ofOption_ok h)
  exact ⟨orderbook, book, hbook, hsdk, hwalk⟩

/-- **An order means USDT where it pays the wei of the amount**, and for shares. -/
theorem meansUsdt_iff_maker {req : BuyRequest} {prepared : Prepared} {n : Nat}
    (hreads : Reads svc req n) :
    MeansUsdt svc req prepared ((n : ℚ) / 10 ^ 18) ↔
      prepared.amounts.makerAmount = Amounts.roundedWei n ∧ KeepsAmount n ∧
      prepared.amounts.takerAmount ≠ 0 ∧
      HasDouble prepared.amounts.perShare := by
  have hscale : ∀ k : Nat, (k : ℚ) ≤ (n : ℚ) / 10 ^ 18 * 10 ^ 18 ↔ k ≤ n := by
    intro k
    rw [div_mul_cancel₀ _ (by norm_num), Nat.cast_le]
  have hfloat : Decimals.floatOf svc.digits req.amountUsdt
      = some (Doubles.shown ((n : ℚ) / 10 ^ 18)) := by
    rw [Decimals.floatOf, hreads.float]
    rfl
  constructor
  · intro hmeans
    have hmaker : prepared.amounts.makerAmount = Amounts.roundedWei n := by
      have hcovers := eq_of_covers fun balance =>
        (overlayGate_ok_iff svc.mcp balance _).symm.trans (hmeans.gate _ balance hreads.wei)
      exact_mod_cast hcovers.symm
    have hpaid := (hscale _).mp hmeans.paid
    -- any answer of the server will do for reading the record back
    let created : OrderRecord floats := { hash := none, status := none, members := [] }
    let placed : Placed floats := { prepared, created, hash := [], polled := created }
    obtain ⟨position, notional, hrecord, hnotional, _, hcost⟩ := hmeans.recorded placed rfl
    have hwritable := (recordOf_ok_iff req placed).mp ⟨position, hrecord⟩
    obtain ⟨entryPrice, notionalUsdt, _, hamount, rfl⟩ := recordOf_ok hrecord
    have htaker : prepared.amounts.takerAmount ≠ 0 := by
      intro htaker
      -- nothing bought, and nothing that it has cost
      have hnone : (positionOf svc req placed entryPrice notionalUsdt).quantityWei = 0 := by
        rw [quantityWei_positionOf]
        exact_mod_cast htaker
      have hpos : 0 < prepared.amounts.usdt := by
        rw [OrderAmounts.usdt, hmaker]
        have hwei : (0 : ℚ) < Amounts.roundedWei n := by exact_mod_cast hreads.wei_pos
        positivity
      rw [hnone, mul_zero, mul_zero, zero_div, zero_sub, abs_neg, abs_of_pos hpos] at hcost
      exact absurd hcost hpos.not_ge
    refine ⟨hmaker, ⟨hmaker ▸ hpaid, ?_⟩, htaker, hwritable.price htaker⟩
    have hshown : Doubles.shown ((n : ℚ) / 10 ^ 18) = notionalUsdt :=
      Option.some.inj (hfloat.symm.trans hamount)
    have hnotional : notionalUsdt = some notional := hnotional
    exact (Doubles.shown_isSome_iff _).mp ⟨notional, hshown.trans hnotional⟩
  · rintro ⟨hmaker, hkeeps, htaker, hprice⟩
    obtain ⟨notional, hnotional⟩ := (Doubles.shown_isSome_iff _).mpr hkeeps.double
    refine ⟨(hscale _).mpr (hmaker ▸ hkeeps.wei), fun amountWei balance hwei => ?_,
      fun placed hplaced => ?_⟩
    · rw [hreads.wei, Except.ok.injEq] at hwei
      rw [overlayGate_ok_iff, hmaker, hwei]
    · have hwritable : Writable svc req placed.prepared.amounts :=
        hplaced ▸ ⟨fun _ => hprice, _, hreads.float⟩
      obtain ⟨position, hrecord⟩ := (recordOf_ok_iff req placed).mpr hwritable
      obtain ⟨entryPrice, notionalUsdt, hentry, hamount, rfl⟩ := recordOf_ok hrecord
      have hshown : notionalUsdt = some notional :=
        (Option.some.inj (hamount.symm.trans hfloat)).trans hnotional
      have hprice := entryPriceOf_of_taker (hplaced ▸ hentry) htaker
      refine ⟨_, notional, hrecord, hshown, ?_, ?_⟩
      · refine abs_notional_sub_le hreads.pos rfl ?_ hnotional
        rw [OrderAmounts.usdt, hmaker]
      · rw [quantityWei_positionOf, hplaced]
        exact abs_cost_sub_le htaker hprice

/-- A record that is written has an amount that `float` reads. -/
theorem MeansUsdt.readFloat_ne_none {req : BuyRequest} {prepared : Prepared} {amount : ℚ}
    (h : MeansUsdt svc req prepared amount) :
    Decimals.readFloat svc.digits req.amountUsdt ≠ none := by
  let created : OrderRecord floats := { hash := none, status := none, members := [] }
  let placed : Placed floats := { prepared, created, hash := [], polled := created }
  obtain ⟨position, _, hrecord, _⟩ := h.recorded placed rfl
  obtain ⟨number, hnumber⟩ := ((recordOf_ok_iff req placed).mp ⟨position, hrecord⟩).amount
  exact Option.ne_none_iff_exists'.mpr ⟨number, hnumber⟩

/-- **What is paid is what was said exactly for a limit order at a price of one, and for a market
    order that spends everything**, of an amount that `float` reads too, that is not rounded up
    and has a double. -/
theorem meansUsdt_iff {req : BuyRequest} {net net' : Net} {prepared : Prepared}
    {builder : OrderBuilder} {num : Decimals.Numeral} {n : Nat}
    (hprepare : prepare x svc req net = (.ok prepared, net'))
    (hbuilder : svc.wallet.builder = some builder) (hexact : builder.Exact)
    (hamount : Decimals.Writes svc.digits req.amountUsdt num.text)
    (hvalue : num.value = n / 10 ^ 18)
    (hprice : ∀ price, req.limitPrice = some price →
      ∃ m : Int, 0 < m ∧ m ≤ 10 ^ 18 ∧ price = (m : ℚ) / 10 ^ 18) :
    MeansUsdt svc req prepared ((n : ℚ) / 10 ^ 18) ↔
      Decimals.readFloat svc.digits req.amountUsdt ≠ none ∧ KeepsAmount n ∧
        SpendsAll x svc builder req (Amounts.roundedWei n) := by
  by_cases hfloat : Decimals.readFloat svc.digits req.amountUsdt = none
  · exact ⟨fun hmeans => absurd hfloat hmeans.readFloat_ne_none, fun h => absurd hfloat h.1⟩
  rw [and_iff_right hfloat]
  obtain ⟨builder', amountWei, hbuilder', hwei, hpos, hanswer⟩ := prepare_amounts hprepare
  obtain rfl : builder = builder' := Option.some.inj (hbuilder.symm.trans hbuilder')
  obtain ⟨hreads, rfl⟩ : Reads svc req n ∧ amountWei = Amounts.roundedWei n :=
    reads_of_amountInWei hamount hvalue hfloat hwei hpos
  rw [meansUsdt_iff_maker hreads, SpendsAll]
  cases hlimit : req.limitPrice with
  | some price =>
      obtain ⟨m, hm, hmle, rfl⟩ := hprice price hlimit
      rw [hlimit] at hanswer
      have hsdk : builder.getLimitOrderAmounts (truncate ((m : ℚ) / 10 ^ 18 * 10 ^ 18))
          (Amounts.roundedWei n) = some prepared.amounts := hanswer
      rw [truncate_wei] at hsdk
      obtain ⟨hmaker, htaker⟩ := hexact.limit m _ _ hm.le (Int.natCast_nonneg _) hsdk
      have htaker : prepared.amounts.takerAmount = Amounts.roundedWei n := by exact_mod_cast htaker
      have hbought : prepared.amounts.takerAmount ≠ 0 := by
        rw [htaker]
        exact hreads.wei_pos.ne'
      have hone : (m : ℚ) / 10 ^ 18 = 1 ↔ m = 10 ^ 18 := by
        rw [div_eq_one_iff_eq (by positivity)]
        exact ⟨fun h => by exact_mod_cast h, fun h => by exact_mod_cast h⟩
      have hpaid : prepared.amounts.makerAmount = Amounts.roundedWei n ↔ (m : ℚ) / 10 ^ 18 = 1 := by
        rw [hone, ← limit_maker_eq_iff hmle hpos, ← hmaker]
        exact_mod_cast Iff.rfl
      constructor
      · rintro ⟨hall, hkeeps, _, _⟩
        exact ⟨hkeeps, hpaid.mp hall⟩
      · rintro ⟨hkeeps, hat⟩
        have hall := hpaid.mpr hat
        refine ⟨hall, hkeeps, hbought, ?_⟩
        rw [OrderAmounts.perShare, hall, htaker,
          div_self (Nat.cast_ne_zero.mpr hreads.wei_pos.ne')]
        exact ⟨1, Doubles.double_one⟩
  | none =>
      rw [hlimit] at hanswer
      obtain ⟨orderbook, book, hbook, hsdk, hwalk⟩ := walk_of_marketAnswer hanswer
      constructor
      · rintro ⟨hall, hkeeps, htaker, hdouble⟩
        exact ⟨hkeeps, orderbook, book, hbook, hsdk, prepared.amounts, hwalk,
          congrArg Nat.cast hall, htaker, hdouble⟩
      · rintro ⟨hkeeps, orderbook', book', hbook', hsdk', amounts, hwalk', hall, htaker, hdouble⟩
        obtain rfl : orderbook = orderbook' := Except.ok.inj (hbook.symm.trans hbook')
        obtain rfl : book = book' := Option.some.inj (hsdk.symm.trans hsdk')
        obtain rfl : prepared.amounts = amounts := Option.some.inj (hwalk.symm.trans hwalk')
        exact ⟨Int.ofNat.inj hall, hkeeps, htaker, hdouble⟩

/-! ## A limit order at a half -/

theorem exact_smallBuilder (hash : Text) : (smallBuilder hash).Exact where
  limit price quantity amounts hprice hquantity h := by
    cases h
    exact ⟨Int.toNat_of_nonneg (Int.ediv_nonneg (mul_nonneg hprice hquantity) (by norm_num)),
      Int.toNat_of_nonneg hquantity⟩
  market input levels amounts hvalue h := by
    obtain ⟨level, _, rfl⟩ := Option.map_eq_some_iff.mp h
    exact (Int.toNat_of_nonneg hvalue).le

theorem writes_tenYes (hash : Text) :
    Decimals.Writes (smallService hash).digits tenYes.amountUsdt Amounts.ten.text :=
  Decimals.writes_plain Amounts.asciiDigits (Decimals.plain_text Amounts.ten)

theorem value_ten : Amounts.ten.value = ((10 * 10 ^ 18 : ℕ) : ℚ) / 10 ^ 18 := by decide +kernel

theorem limitPrice_tenYes : ∀ price, tenYes.limitPrice = some price →
    ∃ m : Int, 0 < m ∧ m ≤ 10 ^ 18 ∧ price = (m : ℚ) / 10 ^ 18 := by
  intro price hprice
  refine ⟨5 * 10 ^ 17, by norm_num, by norm_num, ?_⟩
  obtain rfl : (1 / 2 : ℚ) = price := Option.some.inj hprice
  norm_num

theorem meansUsdt_iff_tenYes :
    MeansUsdt (smallService soldHash) tenYes (preparedYes soldHash)
        (((10 * 10 ^ 18 : ℕ) : ℚ) / 10 ^ 18) ↔
      Decimals.readFloat (smallService soldHash).digits tenYes.amountUsdt ≠ none ∧
        KeepsAmount (10 * 10 ^ 18) ∧
        SpendsAll (smallExchange soldHash openReply) (smallService soldHash)
          (smallBuilder soldHash) tenYes (Amounts.roundedWei (10 * 10 ^ 18)) :=
  meansUsdt_iff (prepare_tenYes soldHash openReply) rfl (exact_smallBuilder soldHash)
    (writes_tenYes soldHash) value_ten limitPrice_tenYes

/-- Ten USDT for YES at a half: ten shares are bought, five USDT are paid, and the record says
    ten. -/
theorem not_meansUsdt_half :
    ¬ ∀ (x : Exchange nanFloats) (svc : Service nanFloats) (req : BuyRequest) (net net' : Net)
      (prepared : Prepared) (builder : OrderBuilder) (num : Decimals.Numeral) (n : Nat),
      prepare x svc req net = (.ok prepared, net') → svc.wallet.builder = some builder →
      builder.Exact → Decimals.Writes svc.digits req.amountUsdt num.text →
      num.value = n / 10 ^ 18 →
      (∀ price, req.limitPrice = some price →
        ∃ m : Int, 0 < m ∧ m ≤ 10 ^ 18 ∧ price = (m : ℚ) / 10 ^ 18) →
      MeansUsdt svc req prepared ((n : ℚ) / 10 ^ 18) := by
  intro hmeans
  have hten := hmeans _ _ _ _ _ _ _ Amounts.ten (10 * 10 ^ 18) (prepare_tenYes soldHash openReply) rfl
    (exact_smallBuilder soldHash) (writes_tenYes soldHash) value_ten limitPrice_tenYes
  -- the account has to cover ten, and five are paid
  have hgate := hten.gate (10 * 10 ^ 18) (5 * 10 ^ 18) (amountInWei_tenYes soldHash)
  rw [overlayGate_ok_iff] at hgate
  exact absurd (hgate.mpr (show ((5 * 10 ^ 18 : ℕ) : Int) ≤ 5 * 10 ^ 18 by norm_num))
    (by norm_num)

/-- Twenty-nine digits at a price of one: more is paid than was said. -/
example : ¬ KeepsAmount 12345678901123456789012345678 := fun h => by
  have hup : Amounts.roundedWei 12345678901123456789012345678
      = 12345678901123456789012345680 := by decide +kernel
  exact absurd h.wei (by rw [hup]; decide)

end Predict

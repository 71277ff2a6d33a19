import MandatedVaultFactory.TextProofs
import Mathlib.Algebra.Ring.Int.Defs

/-!
# Funding a Predict Account from its vault

Where a buy finds too little in the Predict Account, it is refused and a funding step is
offered: the MCP is told how much the account needs and how much it has, and funds the rest.

* **`fundingTarget`** — what the MCP is told.
* **`balance_after`** — what the step leaves: its two numbers both have the balance taken off.
* **`funding_suffices_iff`** — the step does what it is offered for only for an empty account
  and an amount of at most five USDT, or where it is not needed. -/

namespace Predict

open Texts

/-- Five USDT. -/
def minimumTargetBalanceWei : Int := 5 * 10 ^ 18

/-- `funding_target`, its amounts. -/
structure FundingTarget where
  requiredAmountRaw : Text
  currentBalanceRaw : Text

def fundingTarget (currentUsdtBalanceWei : Int) : FundingTarget where
  requiredAmountRaw :=
    decimal (max (minimumTargetBalanceWei - max currentUsdtBalanceWei 0) 0).toNat
  currentBalanceRaw := decimal (max currentUsdtBalanceWei 0).toNat

/-- The MCP of the mandated vault: the plan, the session and the next step that it answers with,
    `none` where the bridge raises, and what executing a step transfers to the account. -/
structure Mcp where
  Plan : Type
  Session : Type
  Step : Type
  /-- The vault is resolved, and context and policy are created. -/
  prepares : Bool
  buildAgentFundAndActionPlan : FundingTarget → Option Plan
  createAgentFundAndActionSession : Plan → Option Session
  nextAgentFundAndActionSessionStep : Session → Option Step
  funds : Step → Int

/-- `VaultToPredictAccountFundingOrchestration`. -/
structure Orchestration (mcp : Mcp) where
  fundingTarget : FundingTarget
  fundingPlan : mcp.Plan
  fundingSession : mcp.Session
  fundingNextStep : mcp.Step

/-- `build_vault_to_predict_account_orchestration`. -/
def buildVaultToPredictAccountOrchestration (mcp : Mcp) (currentUsdtBalanceWei : Int) :
    Option (Orchestration mcp) :=
  if mcp.prepares then do
    let target := fundingTarget currentUsdtBalanceWei
    let plan ← mcp.buildAgentFundAndActionPlan target
    let session ← mcp.createAgentFundAndActionSession plan
    let step ← mcp.nextAgentFundAndActionSessionStep session
    return {
      fundingTarget := target
      fundingPlan := plan
      fundingSession := session
      fundingNextStep := step }
  else none

/-- How a plan is documented: required 1000, current 200, shortfall 800. -/
def FundingTarget.shortfall (t : FundingTarget) : Option Int := do
  let required ← int t.requiredAmountRaw
  let current ← int t.currentBalanceRaw
  return max (required - current) 0

/-- Executing the step of a plan funds its shortfall. -/
def Mcp.FundsShortfall (mcp : Mcp) : Prop :=
  ∀ target plan session step, mcp.buildAgentFundAndActionPlan target = some plan →
    mcp.createAgentFundAndActionSession plan = some session →
    mcp.nextAgentFundAndActionSessionStep session = some step →
    target.shortfall = some (mcp.funds step)

/-- The amounts in the text of `_format_overlay_funding_required_error`. -/
structure FundingRequired where
  attemptedBuyAmountRaw : Int
  requiredAmountRaw : Int
  currentBalanceRaw : Int

/-- How the overlay ends a buy. -/
inductive OverlayError where
  | orchestration
  | fundingRequired (text : FundingRequired)

/-- The overlay gate of `buy`. -/
def overlayGate (mcp : Mcp) (usdtBalance amountWei : Int) : Except OverlayError Unit :=
  if usdtBalance < amountWei then
    match buildVaultToPredictAccountOrchestration mcp usdtBalance with
    | none => .error .orchestration
    | some _ => .error (.fundingRequired
        { attemptedBuyAmountRaw := amountWei
          requiredAmountRaw := max (amountWei - max usdtBalance 0) 0
          currentBalanceRaw := max usdtBalance 0 })
  else .ok ()

/-- **What the funding step is offered for**: the account reaches its minimum, and the buy that
    was refused is not refused again. -/
structure Suffices (mcp : Mcp) (balance amountWei : Int) (o : Orchestration mcp) : Prop where
  minimum : minimumTargetBalanceWei ≤ balance + mcp.funds o.fundingNextStep
  retried : overlayGate mcp balance amountWei ≠ .ok () →
    overlayGate mcp (balance + mcp.funds o.fundingNextStep) amountWei = .ok ()

theorem overlayGate_ok_iff (mcp : Mcp) (balance amountWei : Int) :
    overlayGate mcp balance amountWei = .ok () ↔ amountWei ≤ balance := by
  rw [overlayGate]
  by_cases hlow : balance < amountWei
  · rw [if_pos hlow]
    have hne : ¬ amountWei ≤ balance := by omega
    cases buildVaultToPredictAccountOrchestration mcp balance with
    | none => simp [hne]
    | some o => simp [hne]
  · rw [if_neg hlow]
    simp only [true_iff]
    omega

theorem shortfall_fundingTarget {balance : Int} (h : 0 ≤ balance) :
    (fundingTarget balance).shortfall
      = some (max (max (minimumTargetBalanceWei - balance) 0 - balance) 0) := by
  have hcurrent : max balance 0 = balance := max_eq_left h
  have hrequired : 0 ≤ max (minimumTargetBalanceWei - balance) 0 := le_max_right _ _
  simp only [FundingTarget.shortfall, fundingTarget, int_decimal, hcurrent,
    Int.toNat_of_nonneg h, Int.toNat_of_nonneg hrequired]
  rfl

/-- The step that is offered funds the shortfall of the target. -/
theorem funds_of_orchestration {mcp : Mcp} (hmcp : mcp.FundsShortfall) {balance : Int}
    {o : Orchestration mcp} (h : buildVaultToPredictAccountOrchestration mcp balance = some o) :
    (fundingTarget balance).shortfall = some (mcp.funds o.fundingNextStep) := by
  rw [buildVaultToPredictAccountOrchestration] at h
  by_cases hprepares : mcp.prepares = true
  · rw [if_pos hprepares] at h
    obtain ⟨plan, hplan, h⟩ := Option.bind_eq_some_iff.mp h
    obtain ⟨session, hsession, h⟩ := Option.bind_eq_some_iff.mp h
    obtain ⟨step, hstep, h⟩ := Option.bind_eq_some_iff.mp h
    obtain rfl := Option.some.inj h
    exact hmcp _ plan session step hplan hsession hstep
  · rw [if_neg hprepares] at h
    cases h

/-- **What the step leaves**: the balance is taken off twice. -/
theorem balance_after {mcp : Mcp} (hmcp : mcp.FundsShortfall) {balance : Int} (hpos : 0 ≤ balance)
    {o : Orchestration mcp} (h : buildVaultToPredictAccountOrchestration mcp balance = some o) :
    balance + mcp.funds o.fundingNextStep = max balance (minimumTargetBalanceWei - balance) := by
  have hfunds := funds_of_orchestration hmcp h
  rw [shortfall_fundingTarget hpos, Option.some.injEq] at hfunds
  rw [← hfunds]
  omega

/-- **The funding step suffices exactly for an empty account and at most five USDT, and where
    the account has five USDT and the amount.** -/
theorem funding_suffices_iff {mcp : Mcp} (hmcp : mcp.FundsShortfall) (balance amountWei : Int)
    (hpos : 0 ≤ balance) {o : Orchestration mcp}
    (h : buildVaultToPredictAccountOrchestration mcp balance = some o) :
    Suffices mcp balance amountWei o ↔
      balance = 0 ∧ amountWei ≤ minimumTargetBalanceWei ∨
      minimumTargetBalanceWei ≤ balance ∧ amountWei ≤ balance := by
  have hafter := balance_after hmcp hpos h
  have hminimum : 0 < minimumTargetBalanceWei := by decide
  refine ⟨fun hsuffices => ?_, fun hcondition => ⟨?_, fun _ => ?_⟩⟩
  · have hleast := hsuffices.minimum
    have hretried := hsuffices.retried
    rw [Ne, overlayGate_ok_iff, overlayGate_ok_iff] at hretried
    rw [hafter] at hleast hretried
    omega
  · rw [hafter]
    omega
  · rw [overlayGate_ok_iff, hafter]
    omega

/-! ## Two USDT in the account -/

/-- An MCP that plans, and funds, as documented. -/
def plainMcp : Mcp where
  Plan := FundingTarget
  Session := FundingTarget
  Step := FundingTarget
  prepares := true
  buildAgentFundAndActionPlan t := t.shortfall.map fun _ => t
  createAgentFundAndActionSession := some
  nextAgentFundAndActionSessionStep := some
  funds t := t.shortfall.getD 0

theorem plainMcp_fundsShortfall : plainMcp.FundsShortfall := by
  intro target plan session step hplan hsession hstep
  obtain ⟨amount, hamount, rfl⟩ := Option.map_eq_some_iff.mp hplan
  obtain rfl := Option.some.inj hsession
  obtain rfl := Option.some.inj hstep
  show target.shortfall = some (target.shortfall.getD 0)
  rw [hamount]
  rfl

/-- The step that is offered for a balance. -/
def plainOrchestration (balance : Int) : Orchestration plainMcp where
  fundingTarget := fundingTarget balance
  fundingPlan := fundingTarget balance
  fundingSession := fundingTarget balance
  fundingNextStep := fundingTarget balance

theorem plainMcp_orchestrates {balance : Int} (h : 0 ≤ balance) :
    buildVaultToPredictAccountOrchestration plainMcp balance
      = some (plainOrchestration balance) := by
  have hplan : plainMcp.buildAgentFundAndActionPlan (fundingTarget balance)
      = some (fundingTarget balance) := by
    show (fundingTarget balance).shortfall.map _ = _
    rw [shortfall_fundingTarget h]
    rfl
  simp only [buildVaultToPredictAccountOrchestration, hplan]
  rfl

theorem twoUsdt_pos : (0 : Int) ≤ 2 * 10 ^ 18 := by decide

theorem funding_suffices_twoUsdt :
    Suffices plainMcp (2 * 10 ^ 18) (3 * 10 ^ 18) (plainOrchestration (2 * 10 ^ 18)) ↔
      (2 * 10 ^ 18 : Int) = 0 ∧ 3 * 10 ^ 18 ≤ minimumTargetBalanceWei ∨
      minimumTargetBalanceWei ≤ 2 * 10 ^ 18 ∧ (3 * 10 ^ 18 : Int) ≤ 2 * 10 ^ 18 :=
  funding_suffices_iff plainMcp_fundsShortfall (2 * 10 ^ 18) (3 * 10 ^ 18) twoUsdt_pos
    (plainMcp_orchestrates twoUsdt_pos)

/-- Two USDT are reported as missing three, and one is funded. -/
theorem not_funding_suffices_twoUsdt :
    ¬ ∀ (mcp : Mcp) (balance amountWei : Int) (o : Orchestration mcp), mcp.FundsShortfall →
      0 ≤ balance → buildVaultToPredictAccountOrchestration mcp balance = some o →
      Suffices mcp balance amountWei o := by
  intro hsuffices
  have hleast := (hsuffices plainMcp (2 * 10 ^ 18) (3 * 10 ^ 18) _ plainMcp_fundsShortfall
    twoUsdt_pos (plainMcp_orchestrates twoUsdt_pos)).minimum
  rw [balance_after plainMcp_fundsShortfall twoUsdt_pos (plainMcp_orchestrates twoUsdt_pos)]
    at hleast
  revert hleast
  decide

end Predict

import MandatedVaultFactory.OrderPayloadProofs
import MandatedVaultFactory.TradeServiceProofs

/-!
# The vault to fund

In mandated-vault mode a deposit goes to a vault that is given by its address, or derived from the
parameters it is created with, or both.  Where it is not deployed yet the transaction that creates
it is prepared.

* **`PredictConfig`** — the configurations that are accepted.
* **`resolveMandatedVault`**, **`getMandatedDepositDetails`** — the code.
* **`fundsTheVault_iff`** — when the vault to fund is the vault that is created. -/

namespace VaultResolution

open Texts Predict

/-! ## Configurations -/

inductive RuntimeEnv where
  | mainnet | testnet | testFixture
deriving DecidableEq

/-- The fields of a configuration that decide which vault it is about, and whether it is
    accepted. -/
structure ConfigFields where
  env : RuntimeEnv
  walletModeOverride : Option WalletMode
  apiKey : Option Text
  privateKey : Option Text
  predictAccountAddress : Option Text
  privyPrivateKey : Option Text
  mandatedVaultAddress : Option Text
  mandatedFactoryAddress : Option Text
  mandatedVaultAssetAddress : Option Text
  mandatedVaultName : Option Text
  mandatedVaultSymbol : Option Text
  mandatedVaultAuthority : Option Text
  mandatedVaultSalt : Option Text
  mandatedAllowedAdaptersRoot : Text
  hasMandatedConfigInput : Bool

/-- `bool(value)`. -/
def truthy : Option Text → Bool
  | some (_ :: _) => true
  | _ => false

/-- `HEX32_RE.fullmatch`. -/
def isHex32 (t : Text) : Bool :=
  match t with
  | '0' :: 'x' :: digits => digits.length = 64 && digits.all fun c => (hexVal c.toLower).isSome
  | _ => false

namespace ConfigFields

/-- `mandated_derivation_fields`. -/
def derivationFields (c : ConfigFields) : List (Option Text) :=
  [c.mandatedFactoryAddress, c.mandatedVaultAssetAddress, c.mandatedVaultName,
    c.mandatedVaultSymbol, c.mandatedVaultAuthority, c.mandatedVaultSalt]

/-- `has_mandated_vault_derivation`. -/
def hasMandatedVaultDerivation (c : ConfigFields) : Bool := c.derivationFields.all truthy

def mandatedInputsText : Text :=
  "mandated-vault mode requires ERC_MANDATED_VAULT_ADDRESS or all mandated vault derivation inputs.".toList

/-- `validate_mandated_overlay_inputs`. -/
def validateMandatedOverlayInputs (c : ConfigFields) : Except Text Unit := do
  if !c.hasMandatedConfigInput then
    return ()
  if c.derivationFields.any truthy && !c.hasMandatedVaultDerivation then
    throw mandatedInputsText
  if !truthy c.mandatedVaultAddress && !c.hasMandatedVaultDerivation then
    throw mandatedInputsText

def predictAccountPairText : Text :=
  "Predict Account mode requires both PREDICT_ACCOUNT_ADDRESS and PREDICT_PRIVY_PRIVATE_KEY.".toList

/-- `validate_runtime_contract`, by the mode that is asked for. -/
def validateMode (c : ConfigFields) : Except Text Unit :=
  let hasEoa := c.privateKey.isSome
  let hasPredictAccountAddress := truthy c.predictAccountAddress
  let hasPrivyKey := c.privyPrivateKey.isSome
  let hasPredictAccountCredentials := hasPredictAccountAddress || hasPrivyKey
  match c.walletModeOverride with
  | none => do
      if c.hasMandatedConfigInput then
        throw "Mandated vault configuration requires an explicit PREDICT_WALLET_MODE (predict-account or mandated-vault). If you do not want vault overlay behavior, clear all ERC_MANDATED_* values.".toList
      if hasPredictAccountAddress != hasPrivyKey then
        throw predictAccountPairText
      if hasEoa && hasPredictAccountCredentials then
        throw "Use either PREDICT_PRIVATE_KEY for EOA mode or the Predict Account pair, not both.".toList
  | some .readOnly =>
      if hasEoa || hasPredictAccountCredentials || c.hasMandatedConfigInput then
        throw "read-only mode does not allow EOA, Predict Account, or mandated-vault configuration.".toList
      else return ()
  | some .eoa => do
      if !hasEoa then
        throw "EOA mode requires PREDICT_PRIVATE_KEY.".toList
      if hasPredictAccountCredentials || c.hasMandatedConfigInput then
        throw "EOA mode does not allow Predict Account or mandated-vault configuration.".toList
  | some .predictAccount => do
      if hasPredictAccountAddress != hasPrivyKey then
        throw predictAccountPairText
      if !(hasPredictAccountAddress && hasPrivyKey) then
        throw predictAccountPairText
      if hasEoa then
        throw "Predict Account mode does not allow EOA credentials.".toList
      c.validateMandatedOverlayInputs
  | some .mandatedVault => do
      if hasEoa || hasPredictAccountCredentials then
        throw "mandated-vault mode does not allow EOA or Predict Account credentials.".toList
      c.validateMandatedOverlayInputs

/-- `validate_runtime_contract`. -/
def validateRuntimeContract (c : ConfigFields) : Except Text Unit := do
  if c.env = .mainnet ∧ truthy c.apiKey = false then
    throw "PREDICT_API_KEY is required for mainnet. Use test-fixture for secret-free verification or api-testnet.predict.fun for unauthenticated testnet market reads.".toList
  if !isHex32 c.mandatedAllowedAdaptersRoot then
    throw "ERC_MANDATED_ALLOWED_ADAPTERS_ROOT must be a 32-byte hex string.".toList
  c.validateMode

/-- `wallet_mode`. -/
def walletMode (c : ConfigFields) : WalletMode :=
  match c.walletModeOverride with
  | some mode => mode
  | none =>
      if truthy c.predictAccountAddress && truthy c.privyPrivateKey then .predictAccount
      else if truthy c.privateKey then .eoa
      else .readOnly

end ConfigFields

/-- `PredictConfig`: what is not accepted is no configuration. -/
structure PredictConfig extends ConfigFields where
  valid : toConfigFields.validateRuntimeContract = .ok ()

/-! ## The bridge -/

/-- What a vault is derived from. -/
structure Derivation where
  factory : Text
  asset : Text
  name : Text
  symbol : Text
  authority : Text
  salt : Text
deriving DecidableEq

structure McpTxRequest where
  fromAddress : Text
  toAddress : Text
  data : Text
  value : Text
  gas : Option Text

structure FactoryCreateVaultPrepareResult where
  predictedVault : Text
  txRequest : McpTxRequest

structure VaultHealthCheckResult where
  vault : Text
  mandateAuthority : Text
  authorityEpoch : Text
  nonceThreshold : Text
  totalAssets : Text

structure VaultBootstrapResult where
  predictedVault : Text
  deployedVault : Text
  alreadyDeployed : Bool
  /-- `createTx.txRequest`. -/
  createTx : Option (Option McpTxRequest)
  vaultHealth : Option VaultHealthCheckResult

/-- `MandatedVaultMcpError`, with its text. -/
structure McpError where
  message : Text

/-- The answers of the tools. -/
structure Bridge where
  connect : Except McpError Unit
  availableTools : List Text
  predictVaultAddress : Derivation → Except McpError Text
  vaultBootstrap : Derivation → Except McpError VaultBootstrapResult
  prepareCreateVault : Derivation → Except McpError FactoryCreateVaultPrepareResult
  healthCheck : Text → Except McpError VaultHealthCheckResult

/-- Why the details are not there. -/
inductive Failure where
  | configError (message : Text)
  | mcpError (error : McpError)

/-! ## The code -/

structure MandatedVaultResolution where
  vaultAddress : Text
  vaultAddressSource : Text
  vaultDeployed : Bool
  vaultHealth : Option VaultHealthCheckResult
  createVaultPrepare : Option FactoryCreateVaultPrepareResult

/-- `str(value)`. -/
def strOf (value : Option Text) : Text := value.getD "None".toList

/-- What the tools are asked with. -/
def ConfigFields.derivation (c : ConfigFields) : Derivation where
  factory := strOf c.mandatedFactoryAddress
  asset := strOf c.mandatedVaultAssetAddress
  name := strOf c.mandatedVaultName
  symbol := strOf c.mandatedVaultSymbol
  authority := strOf c.mandatedVaultAuthority
  salt := strOf c.mandatedVaultSalt

def undeployedMarkers : List Text :=
  ["VAULT_NOT_DEPLOYED".toList, "VAULT_UNDEPLOYED".toList, "VAULT_NOT_FOUND".toList,
    "NO_CONTRACT_CODE".toList, "NOT DEPLOYED".toList, "RETURNED NO DATA".toList,
    "ADDRESS IS NOT A CONTRACT".toList]

/-- `_is_expected_undeployed_health_error`. -/
def isExpectedUndeployedHealthError (up : Upper) (error : McpError) : Bool :=
  undeployedMarkers.any fun marker => decide (marker <:+: error.message.flatMap up.upper)

/-- `_bootstrap_create_vault_prepare`. -/
def bootstrapCreateVaultPrepare (bootstrap : VaultBootstrapResult) :
    Option FactoryCreateVaultPrepareResult :=
  match bootstrap.createTx with
  | some (some txRequest) => some { predictedVault := bootstrap.predictedVault, txRequest }
  | _ => none

/-- The health of the vault of a bootstrap plan, where it says that the vault is deployed. -/
def bootstrapHealth (bridge : Bridge) (bootstrap : VaultBootstrapResult) :
    Except Failure (Option VaultHealthCheckResult) :=
  if bootstrap.alreadyDeployed && bootstrap.vaultHealth.isNone then
    ((bridge.healthCheck bootstrap.deployedVault).map some).mapError Failure.mcpError
  else .ok bootstrap.vaultHealth

/-- The vault of a bootstrap plan. -/
def resolveBootstrap (c : ConfigFields) (bridge : Bridge) (includeCreatePrepare : Bool) :
    Except Failure MandatedVaultResolution := do
  let bootstrap ← (bridge.vaultBootstrap c.derivation).mapError Failure.mcpError
  let vaultHealth ← bootstrapHealth bridge bootstrap
  return {
    vaultAddress := bootstrap.deployedVault
    vaultAddressSource := "predicted".toList
    vaultDeployed := bootstrap.alreadyDeployed
    vaultHealth
    createVaultPrepare :=
      if includeCreatePrepare && !bootstrap.alreadyDeployed then
        bootstrapCreateVaultPrepare bootstrap
      else none }

/-- A failure that says that there is no vault is an answer. -/
def checkDeployed (up : Upper) (bridge : Bridge) (vaultAddress : Text) :
    Except Failure (Option VaultHealthCheckResult) :=
  match bridge.healthCheck vaultAddress with
  | .ok health => .ok (some health)
  | .error error =>
      if isExpectedUndeployedHealthError up error then .ok none else .error (.mcpError error)

/-- The transaction that creates the vault, where it is wanted and there is a derivation. -/
def prepareCreate (c : ConfigFields) (bridge : Bridge) (wanted : Bool) :
    Except Failure (Option FactoryCreateVaultPrepareResult) :=
  if wanted && c.hasMandatedVaultDerivation then
    ((bridge.prepareCreateVault c.derivation).map some).mapError Failure.mcpError
  else .ok none

/-- The vault of an address. -/
def resolveAddress (up : Upper) (c : ConfigFields) (bridge : Bridge) (includeCreatePrepare : Bool)
    (vaultAddress vaultAddressSource : Text) : Except Failure MandatedVaultResolution := do
  let vaultHealth ← checkDeployed up bridge vaultAddress
  let createVaultPrepare ← prepareCreate c bridge (includeCreatePrepare && vaultHealth.isNone)
  return {
    vaultAddress
    vaultAddressSource
    vaultDeployed := vaultHealth.isSome
    vaultHealth
    createVaultPrepare }

/-- `resolve_mandated_vault`. -/
def resolveMandatedVault (up : Upper) (c : ConfigFields) (bridge : Bridge)
    (includeCreatePrepare : Bool) : Except Failure MandatedVaultResolution :=
  if truthy c.mandatedVaultAddress then
    resolveAddress up c bridge includeCreatePrepare (strOf c.mandatedVaultAddress) "explicit".toList
  else if !c.hasMandatedVaultDerivation then
    .error (.configError
      "mandated-vault mode requires ERC_MANDATED_VAULT_ADDRESS or full derivation inputs.".toList)
  else if bridge.availableTools.contains "vault_bootstrap".toList then
    resolveBootstrap c bridge includeCreatePrepare
  else do
    let predicted ← (bridge.predictVaultAddress c.derivation).mapError Failure.mcpError
    resolveAddress up c bridge includeCreatePrepare predicted "predicted".toList

structure TxSummary where
  fromAddress : Text
  toAddress : Text
  data : Text
  value : Text
  gas : Option Text

structure CreateVaultPreparation where
  predictedVault : Text
  txSummary : TxSummary
  broadcast : Text

structure DepositDetails where
  mode : WalletMode
  fundingAddress : Text
  signerAddress : Text
  chain : Text
  acceptedAssets : List Text
  bnbBalanceWei : Int
  usdtBalanceWei : Int
  vaultAddressSource : Option Text
  vaultExists : Option Bool
  createVaultPreparation : Option CreateVaultPreparation

/-- What is shown of a prepared transaction. -/
def preparationOf (prepared : FactoryCreateVaultPrepareResult) : CreateVaultPreparation where
  predictedVault := prepared.predictedVault
  txSummary :=
    { fromAddress := prepared.txRequest.fromAddress
      toAddress := prepared.txRequest.toAddress
      data := prepared.txRequest.data
      value := prepared.txRequest.value
      gas := prepared.txRequest.gas }
  broadcast := "manual-only".toList

/-- `value or other`, of texts. -/
def orElse (value : Option Text) (other : Text) : Text :=
  if truthy value then strOf value else other

/-- `_get_mandated_deposit_details`. -/
def getMandatedDepositDetails (up : Upper) (c : ConfigFields) (bridge : Bridge) :
    Except Failure DepositDetails := do
  bridge.connect.mapError Failure.mcpError
  let resolution ← resolveMandatedVault up c bridge true
  return {
    mode := c.walletMode
    fundingAddress := resolution.vaultAddress
    signerAddress := orElse c.mandatedVaultAuthority "not-required".toList
    chain := if c.env = .mainnet then "BNB Mainnet".toList else "BNB Testnet".toList
    acceptedAssets := ["BNB".toList, "USDT".toList]
    bnbBalanceWei := 0
    usdtBalanceWei := 0
    vaultAddressSource := some resolution.vaultAddressSource
    vaultExists := some resolution.vaultDeployed
    createVaultPreparation :=
      if resolution.vaultDeployed then none else resolution.createVaultPrepare.map preparationOf }

/-! ## The vault that is meant -/

/-- The tools give one address for each derivation, and a health check succeeds exactly on the
    vaults that are deployed. -/
structure Deterministic (bridge : Bridge) (derive : Derivation → Text) (deployed : Text → Prop) :
    Prop where
  predict : ∀ d address, bridge.predictVaultAddress d = .ok address → address = derive d
  bootstrap : ∀ d b, bridge.vaultBootstrap d = .ok b →
    b.predictedVault = derive d ∧ b.deployedVault = derive d
  prepare : ∀ d p, bridge.prepareCreateVault d = .ok p → p.predictedVault = derive d
  health : ∀ address, (∃ health, bridge.healthCheck address = .ok health) ↔ deployed address

/-- The vault to fund is the one that is created, and it is said to exist only if it does. -/
structure FundsTheVault (up : Upper) (c : ConfigFields) (bridge : Bridge) : Prop where
  prepared : ∀ details preparation, getMandatedDepositDetails up c bridge = .ok details →
    details.createVaultPreparation = some preparation →
    preparation.predictedVault = details.fundingAddress
  existing : ∀ details, getMandatedDepositDetails up c bridge = .ok details →
    details.vaultExists = some true →
    (∃ health, bridge.healthCheck details.fundingAddress = .ok health)
      ∨ ∃ b, bridge.vaultBootstrap c.derivation = .ok b ∧ b.alreadyDeployed = true
        ∧ b.deployedVault = details.fundingAddress

/-- An address is given and a derivation too, nothing is deployed at the address, and another
    vault is prepared. -/
structure Mismatched (up : Upper) (c : ConfigFields) (bridge : Bridge)
    (derive : Derivation → Text) : Prop where
  connected : bridge.connect = .ok ()
  given : truthy c.mandatedVaultAddress = true
  derived : c.hasMandatedVaultDerivation = true
  undeployed : ∃ error, bridge.healthCheck (strOf c.mandatedVaultAddress) = .error error
    ∧ isExpectedUndeployedHealthError up error = true
  prepared : ∃ p, bridge.prepareCreateVault c.derivation = .ok p
  different : derive c.derivation ≠ strOf c.mandatedVaultAddress

variable {up : Upper} {bridge : Bridge}

theorem bind_ok {α β : Type} {x : Except Failure α} {f : α → Except Failure β} {b : β}
    (h : (x >>= f) = .ok b) : ∃ a, x = .ok a ∧ f a = .ok b := by
  cases x with
  | error failure => cases h
  | ok a => exact ⟨a, rfl, h⟩

theorem of_mapError_ok {α : Type} {x : Except McpError α} {a : α}
    (h : x.mapError Failure.mcpError = .ok a) : x = .ok a := by
  cases x with
  | error error => cases h
  | ok b => exact congrArg Except.ok (Except.ok.inj h)

/-- What a check of an address says. -/
theorem of_checkDeployed {address : Text} {health : Option VaultHealthCheckResult}
    (h : checkDeployed up bridge address = .ok health) :
    (health.isSome = true → ∃ result, bridge.healthCheck address = .ok result)
      ∧ (health.isNone = true → ∃ error, bridge.healthCheck address = .error error
        ∧ isExpectedUndeployedHealthError up error = true) := by
  rw [checkDeployed] at h
  cases hcheck : bridge.healthCheck address with
  | ok result =>
      rw [hcheck] at h
      obtain rfl := Except.ok.inj h
      refine ⟨fun _ => ⟨result, rfl⟩, fun hnone => ?_⟩
      cases hnone
  | error error =>
      rw [hcheck] at h
      by_cases hexpected : isExpectedUndeployedHealthError up error = true
      · simp only [hexpected, if_true] at h
        obtain rfl := Except.ok.inj h
        refine ⟨fun hsome => ?_, fun _ => ⟨error, rfl, hexpected⟩⟩
        cases hsome
      · simp only [hexpected, Bool.false_eq_true, if_false] at h
        cases h

/-- What is prepared is what the tool prepares. -/
theorem of_prepareCreate {c : ConfigFields} {wanted : Bool} {p : FactoryCreateVaultPrepareResult}
    (h : prepareCreate c bridge wanted = .ok (some p)) :
    wanted = true ∧ c.hasMandatedVaultDerivation = true
      ∧ bridge.prepareCreateVault c.derivation = .ok p := by
  rw [prepareCreate] at h
  by_cases hwanted : (wanted && c.hasMandatedVaultDerivation) = true
  · rw [if_pos hwanted] at h
    rw [Bool.and_eq_true] at hwanted
    refine ⟨hwanted.1, hwanted.2, ?_⟩
    cases hcall : bridge.prepareCreateVault c.derivation with
    | error error =>
        rw [hcall] at h
        cases h
    | ok result =>
        rw [hcall] at h
        exact congrArg Except.ok (Option.some.inj (Except.ok.inj h))
  · rw [if_neg hwanted] at h
    cases h

/-- All that a resolution of an address says. -/
theorem of_resolveAddress {c : ConfigFields} {address source : Text}
    {resolution : MandatedVaultResolution}
    (h : resolveAddress up c bridge true address source = .ok resolution) :
    resolution.vaultAddress = address
      ∧ (resolution.vaultDeployed = true → ∃ result, bridge.healthCheck address = .ok result)
      ∧ ∀ p, resolution.createVaultPrepare = some p →
        c.hasMandatedVaultDerivation = true ∧ bridge.prepareCreateVault c.derivation = .ok p
          ∧ ∃ error, bridge.healthCheck address = .error error
            ∧ isExpectedUndeployedHealthError up error = true := by
  obtain ⟨health, hhealth, h⟩ := bind_ok h
  obtain ⟨hdeployed, hundeployed⟩ := of_checkDeployed hhealth
  obtain ⟨prepare, hprepare, h⟩ := bind_ok h
  obtain rfl := Except.ok.inj h
  refine ⟨rfl, hdeployed, fun p hp => ?_⟩
  obtain rfl : prepare = some p := hp
  obtain ⟨hwanted, hderived, hcall⟩ := of_prepareCreate hprepare
  exact ⟨hderived, hcall, hundeployed hwanted⟩

/-- All that a bootstrap plan says. -/
theorem of_resolveBootstrap {c : ConfigFields} {resolution : MandatedVaultResolution}
    (h : resolveBootstrap c bridge true = .ok resolution) :
    ∃ b, bridge.vaultBootstrap c.derivation = .ok b
      ∧ resolution.vaultAddress = b.deployedVault
      ∧ resolution.vaultDeployed = b.alreadyDeployed
      ∧ ∀ p, resolution.createVaultPrepare = some p → p.predictedVault = b.predictedVault := by
  obtain ⟨b, hb, h⟩ := bind_ok h
  obtain ⟨health, _, h⟩ := bind_ok h
  obtain rfl := Except.ok.inj h
  refine ⟨b, of_mapError_ok hb, rfl, rfl, fun p hp => ?_⟩
  have hp : (if (true && !b.alreadyDeployed) = true then bootstrapCreateVaultPrepare b else none)
    = some p := hp
  by_cases hwanted : (true && !b.alreadyDeployed) = true
  · rw [if_pos hwanted, bootstrapCreateVaultPrepare] at hp
    cases htx : b.createTx with
    | none =>
        rw [htx] at hp
        cases hp
    | some tx =>
        cases tx with
        | none =>
            rw [htx] at hp
            cases hp
        | some txRequest =>
            rw [htx] at hp
            obtain rfl := Option.some.inj hp
            rfl
  · rw [if_neg hwanted] at hp
    cases hp

/-- All that a resolution says: where a vault is prepared it is the one that is derived, and where
    that is not the vault to fund an address was given. -/
theorem of_resolveMandatedVault {c : ConfigFields} {derive : Derivation → Text}
    {deployed : Text → Prop} (hbridge : Deterministic bridge derive deployed)
    {resolution : MandatedVaultResolution}
    (h : resolveMandatedVault up c bridge true = .ok resolution) :
    (resolution.vaultDeployed = true →
      (∃ health, bridge.healthCheck resolution.vaultAddress = .ok health)
        ∨ ∃ b, bridge.vaultBootstrap c.derivation = .ok b ∧ b.alreadyDeployed = true
          ∧ b.deployedVault = resolution.vaultAddress)
    ∧ ∀ p, resolution.createVaultPrepare = some p →
      p.predictedVault = derive c.derivation
      ∧ (resolution.vaultAddress = derive c.derivation
        ∨ truthy c.mandatedVaultAddress = true
          ∧ resolution.vaultAddress = strOf c.mandatedVaultAddress
          ∧ c.hasMandatedVaultDerivation = true
          ∧ (∃ p, bridge.prepareCreateVault c.derivation = .ok p)
          ∧ ∃ error, bridge.healthCheck (strOf c.mandatedVaultAddress) = .error error
            ∧ isExpectedUndeployedHealthError up error = true) := by
  rw [resolveMandatedVault] at h
  by_cases hgiven : truthy c.mandatedVaultAddress = true
  · rw [if_pos hgiven] at h
    obtain ⟨haddress, hexists, hprepare⟩ := of_resolveAddress h
    refine ⟨fun hdeployed => Or.inl (haddress ▸ hexists hdeployed), fun p hp => ?_⟩
    obtain ⟨hderived, hcall, hundeployed⟩ := hprepare p hp
    exact ⟨hbridge.prepare _ p hcall,
      Or.inr ⟨hgiven, haddress, hderived, ⟨p, hcall⟩, hundeployed⟩⟩
  rw [if_neg hgiven] at h
  by_cases hderived : (!c.hasMandatedVaultDerivation) = true
  · rw [if_pos hderived] at h
    cases h
  rw [if_neg hderived] at h
  by_cases hbootstrap : bridge.availableTools.contains "vault_bootstrap".toList = true
  · rw [if_pos hbootstrap] at h
    obtain ⟨b, hb, haddress, hdeployed, hprepare⟩ := of_resolveBootstrap h
    obtain ⟨hpredicted, hvault⟩ := hbridge.bootstrap _ b hb
    refine ⟨fun htrue => Or.inr ⟨b, hb, hdeployed ▸ htrue, haddress.symm⟩, fun p hp => ?_⟩
    exact ⟨(hprepare p hp).trans hpredicted, Or.inl (haddress.trans hvault)⟩
  · rw [if_neg hbootstrap] at h
    obtain ⟨predicted, hpredicted, h⟩ := bind_ok h
    obtain ⟨haddress, hexists, hprepare⟩ := of_resolveAddress h
    have hderive := hbridge.predict _ predicted (of_mapError_ok hpredicted)
    refine ⟨fun hdeployed => Or.inl (haddress ▸ hexists hdeployed), fun p hp => ?_⟩
    exact ⟨hbridge.prepare _ p (hprepare p hp).2.1, Or.inl (haddress.trans hderive)⟩

/-- The details are those of the resolution. -/
theorem of_details {c : ConfigFields} {details : DepositDetails}
    (h : getMandatedDepositDetails up c bridge = .ok details) :
    bridge.connect = .ok () ∧ ∃ resolution, resolveMandatedVault up c bridge true = .ok resolution
      ∧ details.fundingAddress = resolution.vaultAddress
      ∧ details.vaultExists = some resolution.vaultDeployed
      ∧ ∀ preparation, details.createVaultPreparation = some preparation →
        ∃ p, resolution.createVaultPrepare = some p ∧ preparation.predictedVault = p.predictedVault := by
  obtain ⟨_, hconnect, h⟩ := bind_ok h
  obtain ⟨resolution, hresolution, h⟩ := bind_ok h
  obtain rfl := Except.ok.inj h
  refine ⟨of_mapError_ok hconnect, resolution, hresolution, rfl, rfl, fun preparation hpreparation => ?_⟩
  have hpreparation : (if resolution.vaultDeployed = true then none
    else resolution.createVaultPrepare.map preparationOf) = some preparation := hpreparation
  by_cases hdeployed : resolution.vaultDeployed = true
  · rw [if_pos hdeployed] at hpreparation
    cases hpreparation
  · rw [if_neg hdeployed] at hpreparation
    obtain ⟨p, hp, rfl⟩ := Option.map_eq_some_iff.mp hpreparation
    exact ⟨p, hp, rfl⟩

/-- The details where another vault is prepared than the one that is given. -/
theorem details_of_mismatched {c : ConfigFields} {derive : Derivation → Text}
    (h : Mismatched up c bridge derive) :
    ∃ details p, getMandatedDepositDetails up c bridge = .ok details
      ∧ details.fundingAddress = strOf c.mandatedVaultAddress
      ∧ details.createVaultPreparation = some (preparationOf p)
      ∧ bridge.prepareCreateVault c.derivation = .ok p := by
  obtain ⟨error, herror, hexpected⟩ := h.undeployed
  obtain ⟨p, hp⟩ := h.prepared
  have hcheck : checkDeployed up bridge (strOf c.mandatedVaultAddress) = .ok none := by
    rw [checkDeployed, herror]
    exact if_pos hexpected
  have hresolution : resolveMandatedVault up c bridge true
      = .ok { vaultAddress := strOf c.mandatedVaultAddress
              vaultAddressSource := "explicit".toList
              vaultDeployed := false
              vaultHealth := none
              createVaultPrepare := some p } := by
    have hprepare : prepareCreate c bridge true = .ok (some p) := by
      rw [prepareCreate, h.derived, hp]
      rfl
    rw [resolveMandatedVault, if_pos h.given, resolveAddress, hcheck]
    show (prepareCreate c bridge true >>= _) = _
    rw [hprepare]
    rfl
  rw [getMandatedDepositDetails, h.connected, hresolution]
  exact ⟨_, p, rfl, rfl, rfl, hp⟩

/-- **When the vault to fund is the vault that is created**: unless an address without a vault is
    given together with a derivation of another. -/
theorem fundsTheVault_iff (up : Upper) (c : PredictConfig) {bridge : Bridge}
    {derive : Derivation → Text} {deployed : Text → Prop}
    (hbridge : Deterministic bridge derive deployed) :
    FundsTheVault up c.toConfigFields bridge ↔ ¬ Mismatched up c.toConfigFields bridge derive := by
  constructor
  · intro hfunds hmismatched
    obtain ⟨details, p, hdetails, haddress, hpreparation, hp⟩ := details_of_mismatched hmismatched
    have heq := hfunds.prepared details _ hdetails hpreparation
    rw [haddress] at heq
    exact hmismatched.different ((hbridge.prepare _ p hp).symm.trans heq)
  · intro hnot
    refine ⟨fun details preparation hdetails hpreparation => ?_, fun details hdetails hexists => ?_⟩
    · obtain ⟨hconnect, resolution, hresolution, haddress, _, hprepared⟩ := of_details hdetails
      obtain ⟨p, hp, hpredicted⟩ := hprepared preparation hpreparation
      obtain ⟨hderive, hvault⟩ := (of_resolveMandatedVault hbridge hresolution).2 p hp
      rw [hpredicted, hderive, haddress]
      rcases hvault with hvault | ⟨hgiven, hvault, hderived, hcall, hundeployed⟩
      · exact hvault.symm
      · by_contra hdifferent
        exact hnot ⟨hconnect, hgiven, hderived, hundeployed, hcall, hvault ▸ hdifferent⟩
    · obtain ⟨_, resolution, hresolution, haddress, hsome, _⟩ := of_details hdetails
      rw [haddress]
      refine (of_resolveMandatedVault hbridge hresolution).1 ?_
      exact Option.some.inj (hsome.symm.trans hexists)

/-! ## An address and a derivation -/

/-- A configuration with a derivation, and an address or none. -/
def smallFields (address : Option Text) : ConfigFields where
  env := .testnet
  walletModeOverride := some .mandatedVault
  apiKey := none
  privateKey := none
  predictAccountAddress := none
  privyPrivateKey := none
  mandatedVaultAddress := address
  mandatedFactoryAddress := some ['f']
  mandatedVaultAssetAddress := some ['u']
  mandatedVaultName := some ['n']
  mandatedVaultSymbol := some ['s']
  mandatedVaultAuthority := some ['a']
  mandatedVaultSalt := some ['z']
  mandatedAllowedAdaptersRoot := '0' :: 'x' :: List.replicate 64 '1'
  hasMandatedConfigInput := true

def smallConfig (address : Option Text) : PredictConfig where
  toConfigFields := smallFields address
  valid := by
    cases address with
    | none => rfl
    | some address => cases address <;> rfl

/-- A chain without vaults, on which one vault is derived from everything. -/
def emptyChain : Bridge where
  connect := .ok ()
  availableTools := []
  predictVaultAddress _ := .ok ['v']
  vaultBootstrap _ := .error ⟨[]⟩
  prepareCreateVault _ := .ok
    { predictedVault := ['v']
      txRequest := { fromAddress := ['a'], toAddress := ['f'], data := [], value := ['0'], gas := none } }
  healthCheck _ := .error ⟨"VAULT_NOT_DEPLOYED".toList⟩

theorem deterministic_emptyChain : Deterministic emptyChain (fun _ => ['v']) fun _ => False where
  predict := fun _ _ h => (Except.ok.inj h).symm
  bootstrap := by
    intro d b h
    cases h
  prepare := by
    intro d p h
    obtain rfl := Except.ok.inj h
    rfl
  health := by
    intro address
    constructor
    · rintro ⟨health, h⟩
      cases h
    · exact False.elim

/-- The vault that is derived is the one to fund. -/
theorem fundsTheVault_iff_derived :
    FundsTheVault asciiUpper (smallConfig none).toConfigFields emptyChain := by
  refine (fundsTheVault_iff asciiUpper (smallConfig none) deterministic_emptyChain).mpr ?_
  intro h
  exact absurd h.given (by decide)

/-- With an address beside the derivation the one vault is to be funded, and the other is
    created. -/
theorem not_fundsTheVault_both :
    ¬ ∀ (up : Upper) (c : PredictConfig) (bridge : Bridge) (derive : Derivation → Text)
        (deployed : Text → Prop), Deterministic bridge derive deployed →
      FundsTheVault up c.toConfigFields bridge := by
  intro hall
  have hfunds := hall asciiUpper (smallConfig (some ['w'])) emptyChain _ _ deterministic_emptyChain
  have hmismatched : Mismatched asciiUpper (smallFields (some ['w'])) emptyChain fun _ => ['v'] := by
    refine ⟨rfl, rfl, rfl, ⟨_, rfl, by decide⟩, ⟨_, rfl⟩, by decide⟩
  obtain ⟨details, p, hdetails, haddress, hpreparation, hp⟩ := details_of_mismatched hmismatched
  have heq := hfunds.prepared details _ hdetails hpreparation
  obtain rfl := Except.ok.inj hp
  rw [haddress] at heq
  exact absurd heq (by decide)

end VaultResolution

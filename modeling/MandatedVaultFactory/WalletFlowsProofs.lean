import MandatedVaultFactory.BridgeRunsProofs
import MandatedVaultFactory.FundingProofs
import MandatedVaultFactory.VaultResolutionProofs

/-!
# The flows over the bridge

The wallet's status, a deposit and a buy that is to be funded ask the MCP server for plans.  Each
connects a bridge, asks through it, and closes it.

* **`resolveMandatedVault`**, **`buildVaultToPredictAccountOrchestration`** — the code, over what
  it asks of the bridge.
* **`only_flow`** — what they ask of the bridge: plans, and the transaction that creates the vault
  for a deposit alone.
* **`tells_harmless`** — so much of it as comes to the process, in every run.
* **`eval_resolveMandatedVault`**, **`deposit_refines`** — against a server whose answers are fixed
  the vault and the deposit are the ones that the model of the answers comes to. -/

namespace WalletFlows

open Effect Texts Json McpBridge
open Mcp hiding Payload
open VaultResolution (ConfigFields MandatedVaultResolution VaultHealthCheckResult
  VaultBootstrapResult FactoryCreateVaultPrepareResult McpError truthy strOf
  isExpectedUndeployedHealthError bootstrapCreateVaultPrepare)
open Secrets (readToolError)

variable {floats : Floats}

/-! ## What a flow is -/

/-- Code that asks a connected bridge. -/
abbrev Flow (floats : Floats) (α : Type) : Type := ExceptT Raised (Prog (Use floats) Use.Reply) α

def raise {α : Type} (error : Error) : Flow floats α := throw (.exception error)

/-- What may be raised, as code. -/
def orRaise {α : Type} : Except Error α → Flow floats α
  | .ok a => return a
  | .error error => raise error

/-- `_call_tool`, as the methods of the bridge use it. -/
def callTool (tool : Text) (arguments : Payload floats) (txPreparation : Bool)
    (requiredTools : Option (List Text)) : Flow floats (Payload floats) :=
  ExceptT.mk (Prog.perform (Use.callTool tool arguments txPreparation requiredTools))

def availableTools : Flow floats (List Text) :=
  ExceptT.lift (Prog.perform Use.availableTools)

/-! ## Configuration and surroundings -/

/-- The configuration that the flows read. -/
structure FlowConfig extends ConfigFields where
  mandatedChainId : Option Int
  mandatedAuthorityPrivateKey : Option Text
  mandatedExecutorPrivateKey : Option Text
  mandatedFundingMaxAmountPerTx : Option Text
  mandatedFundingMaxAmountPerWindow : Option Text
  mandatedFundingWindowSeconds : Option Int

/-- What is not under the repository: how a key's address and a text in capitals are found, and
    how results are validated. -/
structure Around (floats : Floats) where
  py : Secrets.Python floats
  up : Predict.Upper
  addressOf : Text → Text
  predicted : Payload floats → Except Text Text
  health : Payload floats → Except Text VaultHealthCheckResult
  prepared : Payload floats → Except Text FactoryCreateVaultPrepareResult
  bootstrap : Payload floats → Except Text VaultBootstrapResult
  /-- `model_validate` and `model_dump`, by the name of the model. -/
  dump : Text → Payload floats → Except Text (Payload floats)

namespace FlowConfig

/-- `int(chain_id)`. -/
def chainId (c : FlowConfig) : Int := if c.env = .mainnet then 56 else 97

/-- `_chain_id_value`. -/
def chainIdValue (c : FlowConfig) : Int :=
  match c.mandatedChainId with
  | none => c.chainId
  | some n => if n = 0 then c.chainId else n

/-- `mandated_authority_private_key_value`. -/
def mandatedAuthorityPrivateKeyValue (c : FlowConfig) : Option Text :=
  if truthy c.mandatedAuthorityPrivateKey then c.mandatedAuthorityPrivateKey else none

/-- `mandated_executor_private_key_value`. -/
def mandatedExecutorPrivateKeyValue (c : FlowConfig) : Option Text :=
  match c.mandatedExecutorPrivateKey with
  | some key => some key
  | none => c.mandatedAuthorityPrivateKeyValue

/-- `mandated_executor_address`. -/
def mandatedExecutorAddress (c : FlowConfig) (around : Around floats) : Option Text :=
  match c.mandatedExecutorPrivateKeyValue with
  | some (d :: key) => some (around.addressOf (d :: key))
  | _ => c.mandatedVaultAuthority

end FlowConfig

/-! ## The methods of the bridge -/

def optText : Option Text → Value floats.Float
  | none => .null
  | some text => .str text

def optInt : Option Int → Value floats.Float
  | none => .null
  | some n => .int n

variable (c : FlowConfig) (around : Around floats)

/-- `_parse_result`, where the model is validated by `validate`. -/
def parseResult {β : Type} (tool : Text) (validate : Payload floats → Except Text β)
    (structured : Payload floats) : Except Error β :=
  match Json.get errorKey structured with
  | some (.obj toolError) =>
      match readToolError id toolError with
      | some (code, message) =>
          .error (.mcp ("Mandated-vault MCP tool ".toList ++ tool ++ " failed: ".toList ++ code
            ++ " ".toList ++ message))
      | none => .error (.other (around.py.invalidToolError (widenMembers toolError)))
  | _ =>
      match Json.get resultKey structured with
      | some (.obj payload) =>
          (validate payload).mapError fun text =>
            .other ("Malformed ".toList ++ tool ++ " response: ".toList ++ text)
      | _ =>
          .error (.other ("Malformed ".toList ++ tool
            ++ " response: missing result object.".toList))

/-- A method: its tool is called and the answer validated. -/
def method {β : Type} (tool : Text) (arguments : Payload floats) (txPreparation : Bool)
    (requiredTools : Option (List Text)) (validate : Payload floats → Except Text β) :
    Flow floats β := do
  let structured ← callTool tool arguments txPreparation requiredTools
  orRaise (parseResult around tool validate structured)

def healthTool : Text := "vault_health_check".toList
def predictTool : Text := "factory_predict_vault_address".toList
def prepareTool : Text := "factory_create_vault_prepare".toList
def bootstrapTool : Text := "vault_bootstrap".toList
def contextTool : Text := "agent_account_context_create".toList
def policyTool : Text := "agent_funding_policy_create".toList
def planTool : Text := "agent_build_fund_and_action_plan".toList
def sessionTool : Text := "agent_fund_and_action_session_create".toList
def nextStepTool : Text := "agent_fund_and_action_session_next_step".toList

def vaultKey : Text := "vault".toList
def chainIdKey : Text := "chainId".toList
def factoryKey : Text := "factory".toList
def assetKey : Text := "asset".toList
def nameKey : Text := "name".toList
def symbolKey : Text := "symbol".toList
def authorityKey : Text := "authority".toList
def saltKey : Text := "salt".toList
def fromKey : Text := "from".toList

def healthArguments (vault : Text) : Payload floats :=
  [(vaultKey, .str vault), (chainIdKey, .int c.chainIdValue)]

/-- `health_check`. -/
def healthCheck (vault : Text) : Flow floats VaultHealthCheckResult :=
  method around healthTool (healthArguments c vault) false none around.health

def predictArguments : Payload floats :=
  [(chainIdKey, .int c.chainIdValue), (factoryKey, optText c.mandatedFactoryAddress),
    (assetKey, .str (strOf c.mandatedVaultAssetAddress)),
    (nameKey, .str (strOf c.mandatedVaultName)), (symbolKey, .str (strOf c.mandatedVaultSymbol)),
    (authorityKey, .str (strOf c.mandatedVaultAuthority)),
    (saltKey, .str (strOf c.mandatedVaultSalt))]

/-- `predict_vault_address`, of the configured derivation. -/
def predictVaultAddress : Flow floats Text :=
  method around predictTool (predictArguments c) false none around.predicted

def prepareArguments : Payload floats :=
  [(chainIdKey, .int c.chainIdValue), (factoryKey, optText c.mandatedFactoryAddress),
    (fromKey, optText c.mandatedVaultAuthority),
    (assetKey, .str (strOf c.mandatedVaultAssetAddress)),
    (nameKey, .str (strOf c.mandatedVaultName)), (symbolKey, .str (strOf c.mandatedVaultSymbol)),
    (authorityKey, .str (strOf c.mandatedVaultAuthority)),
    (saltKey, .str (strOf c.mandatedVaultSalt))]

/-- `prepare_create_vault`, of the configured derivation. -/
def prepareCreateVault : Flow floats FactoryCreateVaultPrepareResult :=
  method around prepareTool (prepareArguments c) true none around.prepared

def modeKey : Text := "mode".toList
def executorKey : Text := "executor".toList
def createAccountContextKey : Text := "createAccountContext".toList
def createFundingPolicyKey : Text := "createFundingPolicy".toList

/-- The arguments of a bootstrap that is planned only. -/
def bootstrapArguments : Payload floats :=
  [(chainIdKey, .int c.chainIdValue), (factoryKey, optText c.mandatedFactoryAddress),
    (assetKey, .str (strOf c.mandatedVaultAssetAddress)),
    (nameKey, .str (strOf c.mandatedVaultName)), (symbolKey, .str (strOf c.mandatedVaultSymbol)),
    (saltKey, .str (strOf c.mandatedVaultSalt)),
    ("signerAddress".toList, .str (strOf c.mandatedVaultAuthority)),
    (modeKey, .str "plan".toList), ("authorityMode".toList, .str "single_key".toList),
    (authorityKey, .str (strOf c.mandatedVaultAuthority)), (executorKey, .null),
    (createAccountContextKey, .bool false), (createFundingPolicyKey, .bool false),
    ("accountContextOptions".toList, .null), ("fundingPolicyOptions".toList, .null)]

/-- `vault_bootstrap`, as it is called. -/
def vaultBootstrap : Flow floats VaultBootstrapResult :=
  method around bootstrapTool (bootstrapArguments c) false (some Secrets.bootstrapRequiredTools)
    around.bootstrap

/-! ## The vault -/

/-- The health of the vault of a bootstrap plan, where it says that the vault is deployed. -/
def bootstrapHealth (bootstrap : VaultBootstrapResult) :
    Flow floats (Option VaultHealthCheckResult) :=
  if bootstrap.alreadyDeployed && bootstrap.vaultHealth.isNone then do
    let health ← healthCheck c around bootstrap.deployedVault
    return some health
  else return bootstrap.vaultHealth

/-- The vault of a bootstrap plan. -/
def resolveBootstrap (includeCreatePrepare : Bool) : Flow floats MandatedVaultResolution := do
  let bootstrap ← vaultBootstrap c around
  let vaultHealth ← bootstrapHealth c around bootstrap
  return {
    vaultAddress := bootstrap.deployedVault
    vaultAddressSource := "predicted".toList
    vaultDeployed := bootstrap.alreadyDeployed
    vaultHealth
    createVaultPrepare :=
      if includeCreatePrepare && !bootstrap.alreadyDeployed then
        bootstrapCreateVaultPrepare bootstrap
      else none }

/-- What `except MandatedVaultMcpError` makes of an error that says that there is no vault. -/
def unlessUndeployed {α : Type} : Except Raised α → Except Raised (Option α)
  | .ok health => .ok (some health)
  | .error (.exception (.mcp message)) =>
      if isExpectedUndeployedHealthError around.up ⟨message⟩ then .ok none
      else .error (.exception (.mcp message))
  | .error raised => .error raised

def checkDeployed (vaultAddress : Text) : Flow floats (Option VaultHealthCheckResult) :=
  ExceptT.mk ((healthCheck c around vaultAddress).run.bind fun health =>
    .done (unlessUndeployed around health))

/-- The transaction that creates the vault, where it is wanted and there is a derivation. -/
def prepareCreate (wanted : Bool) : Flow floats (Option FactoryCreateVaultPrepareResult) :=
  if wanted && c.hasMandatedVaultDerivation then do
    let prepared ← prepareCreateVault c around
    return some prepared
  else return none

/-- The vault of an address. -/
def resolveAddress (includeCreatePrepare : Bool) (vaultAddress vaultAddressSource : Text) :
    Flow floats MandatedVaultResolution := do
  let vaultHealth ← checkDeployed c around vaultAddress
  let createVaultPrepare ← prepareCreate c around (includeCreatePrepare && vaultHealth.isNone)
  return {
    vaultAddress
    vaultAddressSource
    vaultDeployed := vaultHealth.isSome
    vaultHealth
    createVaultPrepare }

/-- `resolve_mandated_vault`. -/
def resolveMandatedVault (includeCreatePrepare : Bool) : Flow floats MandatedVaultResolution :=
  if truthy c.mandatedVaultAddress then
    resolveAddress c around includeCreatePrepare (strOf c.mandatedVaultAddress) "explicit".toList
  else if !c.hasMandatedVaultDerivation then
    raise (.other
      "mandated-vault mode requires ERC_MANDATED_VAULT_ADDRESS or full derivation inputs.".toList)
  else do
    let tools ← availableTools
    if tools.contains bootstrapTool then resolveBootstrap c around includeCreatePrepare
    else
      let predicted ← predictVaultAddress c around
      resolveAddress c around includeCreatePrepare predicted "predicted".toList

/-! ## The funding of the account -/

/-- A member of a result that is to be an object, or the end of the flow. -/
def member (operation field : Text) (payload : Payload floats) : Flow floats (Payload floats) :=
  match Json.get field payload with
  | some (.obj nested) => return nested
  | _ =>
      raise (.other ("Malformed ".toList ++ operation ++ " response: expected ".toList
        ++ '\x60' :: field ++ '\x60' :: " object in payload.".toList))

/-- `mandate_defaults`. -/
def mandateDefaults (allowedAdaptersRoot : Text) : Payload floats :=
  [("allowedAdaptersRoot".toList, .str allowedAdaptersRoot),
    ("maxDrawdownBps".toList, .str "10000".toList),
    ("maxCumulativeDrawdownBps".toList, .str "10000".toList),
    ("payloadBinding".toList, .str "actionsDigest".toList),
    ("extensions".toList, .str "0x".toList)]

/-- Who is to be funded, by whom, and when. -/
structure Funded where
  predictAccountAddress : Text
  tradeSignerAddress : Text
  currentUsdtBalanceWei : Int
  timestamp : Text

variable (f : Funded)

/-- `policy_id`. -/
def policyId : Text := "vault-to-predict-account:".toList ++ lower f.predictAccountAddress

/-- `agent_id`. -/
def agentId : Text := "predict-account:".toList ++ lower f.predictAccountAddress

def agentIdKey : Text := "agentId".toList
def fundingPolicyRefKey : Text := "fundingPolicyRef".toList
def defaultsKey : Text := "defaults".toList

/-- The arguments of the context of the account. -/
def contextArguments (vault executor : Text) (defaults : Payload floats) : Payload floats :=
  [(agentIdKey, .str (agentId f)), (chainIdKey, .int c.chainIdValue), (vaultKey, .str vault),
    (authorityKey, optText c.mandatedVaultAuthority), (executorKey, .str executor),
    ("assetRegistryRef".toList, .null), (fundingPolicyRefKey, .str (policyId f)),
    (defaultsKey, .obj defaults), ("createdAt".toList, .str f.timestamp),
    ("updatedAt".toList, .str f.timestamp)]

/-- `create_agent_account_context`, of the resolved vault. -/
def createAgentAccountContext (vault executor : Text) (defaults : Payload floats) :
    Flow floats (Payload floats) := do
  let result ← method around contextTool (contextArguments c f vault executor defaults) false none
    (around.dump "AgentAccountContextCreateResult".toList)
  member contextTool "accountContext".toList result

def allowedTokenAddressesKey : Text := "allowedTokenAddresses".toList
def allowedRecipientsKey : Text := "allowedRecipients".toList

/-- The arguments of the funding policy of the account. -/
def policyArguments : Payload floats :=
  [("policyId".toList, .str (policyId f)),
    (allowedTokenAddressesKey, .arr [optText c.mandatedVaultAssetAddress]),
    (allowedRecipientsKey, .arr [.str f.predictAccountAddress]),
    ("maxAmountPerTx".toList, optText c.mandatedFundingMaxAmountPerTx),
    ("maxAmountPerWindow".toList, optText c.mandatedFundingMaxAmountPerWindow),
    ("windowSeconds".toList, optInt c.mandatedFundingWindowSeconds),
    ("expiresAt".toList, .null), ("repeatable".toList, .bool true),
    ("createdAt".toList, .str f.timestamp), ("updatedAt".toList, .str f.timestamp)]

/-- `create_agent_funding_policy`. -/
def createAgentFundingPolicy : Flow floats (Payload floats) := do
  let result ← method around policyTool (policyArguments c f) false none
    (around.dump "AgentFundingPolicyCreateResult".toList)
  member policyTool "fundingPolicy".toList result

def recipientKey : Text := "recipient".toList
def tokenAddressKey : Text := "tokenAddress".toList
def requiredAmountRawKey : Text := "requiredAmountRaw".toList
def fundingTargetKey : Text := "fundingTarget".toList

/-- `funding_target`. -/
def fundingTarget : Payload floats :=
  let amounts := Predict.fundingTarget f.currentUsdtBalanceWei
  [("label".toList, .str "predict-account-usdt".toList),
    (recipientKey, .str f.predictAccountAddress),
    (tokenAddressKey, optText c.mandatedVaultAssetAddress),
    (requiredAmountRawKey, .str amounts.requiredAmountRaw),
    ("currentBalanceRaw".toList, .str amounts.currentBalanceRaw),
    ("balanceSnapshot".toList, .obj [("snapshotAt".toList, .str f.timestamp),
      ("maxStalenessSeconds".toList, .int 120),
      ("source".toList, .str "predict-wallet-status".toList)])]

/-- `funding_context`. -/
def fundingContext (health : Option VaultHealthCheckResult) (defaults : Payload floats) :
    Payload floats :=
  [("nonce".toList, .str "0".toList), ("deadline".toList, .str "0".toList),
    ("authorityEpoch".toList, .str ((health.map (·.authorityEpoch)).getD "0".toList))] ++ defaults

/-- `follow_up_action`. -/
def followUpAction : Payload floats :=
  [("kind".toList, .str "predict-order-submission".toList),
    ("target".toList, .str "predict-api".toList),
    ("payload".toList, .obj [("status".toList, .str "deferred".toList),
      ("reason".toList, .str "buy-orchestration-not-enabled-in-this-task".toList)])]

/-- The arguments of `build_agent_fund_and_action_plan`; an empty policy counts as none. -/
def planArguments (accountContext fundingPolicy fundingTarget fundingContext followUpAction :
    Payload floats) : Payload floats :=
  [("accountContext".toList, .obj accountContext),
    ("fundingPolicy".toList, if fundingPolicy = [] then .null else .obj fundingPolicy),
    (fundingTargetKey, .obj fundingTarget), ("fundingContext".toList, .obj fundingContext),
    ("followUpAction".toList, .obj followUpAction)]

/-- `build_agent_fund_and_action_plan`. -/
def buildAgentFundAndActionPlan (arguments : Payload floats) : Flow floats (Payload floats) :=
  method around planTool arguments false none (around.dump "FundAndActionPlanResult".toList)

def planKey : Text := "fundAndActionPlan".toList
def createdAtKey : Text := "createdAt".toList
def sessionKey : Text := "session".toList

def sessionArguments (plan : Payload floats) : Payload floats :=
  [(planKey, .obj plan), ("sessionId".toList, .null), (createdAtKey, .str f.timestamp)]

/-- `create_agent_fund_and_action_session`. -/
def createAgentFundAndActionSession (plan : Payload floats) : Flow floats (Payload floats) := do
  let result ← method around sessionTool (sessionArguments f plan) false none
    (around.dump "FundAndActionSessionCreateResult".toList)
  member sessionTool sessionKey result

/-- `next_agent_fund_and_action_session_step`; the whole answer, if there is a task in it. -/
def nextAgentFundAndActionSessionStep (session : Payload floats) :
    Flow floats (Payload floats) := do
  let result ← method around nextStepTool [(sessionKey, .obj session)] false none
    (around.dump "FundAndActionSessionNextStepResult".toList)
  let _ ← member nextStepTool "task".toList result
  return result

/-- `VaultToPredictAccountFundingOrchestration`. -/
structure Orchestration (floats : Floats) where
  fundingRoute : Text
  predictAccountAddress : Text
  tradeSignerAddress : Text
  vaultAddress : Text
  vaultAddressSource : Text
  vaultExists : Bool
  accountContext : Payload floats
  fundingPolicy : Payload floats
  fundingTarget : Payload floats
  fundingPlan : Payload floats
  fundingSession : Payload floats
  fundingNextStep : Payload floats

/-- What is asked once the vault is resolved. -/
def orchestrate (resolution : MandatedVaultResolution) (executor allowedAdaptersRoot : Text) :
    Flow floats (Orchestration floats) := do
  let defaults := mandateDefaults allowedAdaptersRoot
  let accountContext ←
    createAgentAccountContext c around f resolution.vaultAddress executor defaults
  let fundingPolicy ← createAgentFundingPolicy c around f
  let fundingPlan ← buildAgentFundAndActionPlan around
    (planArguments accountContext fundingPolicy (fundingTarget c f)
      (fundingContext resolution.vaultHealth defaults) followUpAction)
  let fundingSession ← createAgentFundAndActionSession around f fundingPlan
  let fundingNextStep ← nextAgentFundAndActionSessionStep around fundingSession
  return {
    fundingRoute := "vault-to-predict-account".toList
    predictAccountAddress := f.predictAccountAddress
    tradeSignerAddress := f.tradeSignerAddress
    vaultAddress := resolution.vaultAddress
    vaultAddressSource := resolution.vaultAddressSource
    vaultExists := resolution.vaultDeployed
    accountContext
    fundingPolicy
    fundingTarget := fundingTarget c f
    fundingPlan
    fundingSession
    fundingNextStep }

def authorityText : Text :=
  "predict-account + vault overlay requires ERC_MANDATED_VAULT_AUTHORITY for funding orchestration.".toList

def assetText : Text :=
  "predict-account + vault overlay requires ERC_MANDATED_VAULT_ASSET_ADDRESS for funding orchestration.".toList

def executorText : Text :=
  "predict-account + vault overlay requires an authorized funding executor address.".toList

/-- `build_vault_to_predict_account_orchestration`; `allowedAdaptersRoot` is what
    `_resolve_transfer_allowed_adapters_root` comes to. -/
def buildVaultToPredictAccountOrchestration (allowedAdaptersRoot : Except Error Text) :
    Flow floats (Orchestration floats) :=
  if !truthy c.mandatedVaultAuthority then raise (.other authorityText)
  else if !truthy c.mandatedVaultAssetAddress then raise (.other assetText)
  else do
    let resolution ← resolveMandatedVault c around false
    match c.mandatedExecutorAddress around with
    | some (d :: executor) => do
        let root ← orRaise allowedAdaptersRoot
        orchestrate c around f resolution (d :: executor) root
    | _ => raise (.other executorText)

/-! ## The commands -/

/-- A command that connects a bridge; the overlay comes with the balances of the wallet and what it
    knows besides. -/
inductive Command where
  | mandatedStatus
  | mandatedDeposit
  /-- The overlay of `get_status`, `get_deposit_details` and `buy`. -/
  | overlay (bnbBalance usdtBalance : Except Error Int) (predictAccountAddress tradeSignerAddress
      timestamp : Text) (allowedAdaptersRoot : Except Error Text)

/-- What it loads. -/
inductive Loaded (floats : Floats) where
  | status (resolution : MandatedVaultResolution) (available missing : List Text)
  | deposit (details : VaultResolution.DepositDetails)
  | overlay (bnbBalance usdtBalance : Int) (orchestration : Orchestration floats)

/-- `DepositDetails`, of a resolved vault. -/
def depositDetails (resolution : MandatedVaultResolution) : VaultResolution.DepositDetails where
  mode := c.walletMode
  fundingAddress := resolution.vaultAddress
  signerAddress := VaultResolution.orElse c.mandatedVaultAuthority "not-required".toList
  chain := if c.env = .mainnet then "BNB Mainnet".toList else "BNB Testnet".toList
  acceptedAssets := ["BNB".toList, "USDT".toList]
  bnbBalanceWei := 0
  usdtBalanceWei := 0
  vaultAddressSource := some resolution.vaultAddressSource
  vaultExists := some resolution.vaultDeployed
  createVaultPreparation :=
    if resolution.vaultDeployed then none
    else resolution.createVaultPrepare.map VaultResolution.preparationOf

/-- What is done between `connect` and `close`. -/
def Command.flow : Command → Flow floats (Loaded floats)
  | .mandatedStatus => do
      let resolution ← resolveMandatedVault c around false
      let available ← availableTools
      return .status resolution available (Secrets.missingRequiredTools available)
  | .mandatedDeposit => do
      let resolution ← resolveMandatedVault c around true
      return .deposit (depositDetails c resolution)
  | .overlay bnbBalance usdtBalance predictAccountAddress tradeSignerAddress timestamp root => do
      let bnb ← orRaise bnbBalance
      let usdt ← orRaise usdtBalance
      let orchestration ← buildVaultToPredictAccountOrchestration c around
        { predictAccountAddress, tradeSignerAddress, currentUsdtBalanceWei := usdt, timestamp } root
      return .overlay bnb usdt orchestration

/-! ## What the commands ask -/

/-- Whether a command may ask for the transaction that creates the vault. -/
def Command.prepares : Command → Bool
  | .mandatedDeposit => true
  | _ => false

/-- Whom a command wants to be funded, and through which adapters. -/
inductive Command.Funds : Command → Funded → Text → Prop
  | overlay (bnbBalance : Except Error Int) (usdt : Int) (account signer timestamp root : Text) :
      Command.Funds (.overlay bnbBalance (.ok usdt) account signer timestamp (.ok root))
        ⟨account, signer, usdt, timestamp⟩ root

/-- The vault that is meant: the configured one, and where none is configured one that an answer
    gives. -/
def Meant (vault : Text) : Prop :=
  if truthy c.mandatedVaultAddress then vault = strOf c.mandatedVaultAddress
  else (∃ payload, around.predicted payload = .ok vault)
    ∨ ∃ payload bootstrap, around.bootstrap payload = .ok bootstrap
      ∧ vault = bootstrap.deployedVault

variable {c around f} {prepares : Bool} {Funds : Funded → Text → Prop}

/-- What a flow asks is all of one kind, and what it returns is of another. -/
def Gives {α : Type} (P : Use floats → Prop) (Q : α → Prop) (x : Flow floats α) : Prop :=
  Prog.OnlyTo P (fun r => ∀ a, r = Except.ok a → Q a) x.run

theorem Gives.any {α : Type} {P : Use floats → Prop} {Q : α → Prop} {x : Flow floats α}
    (h : Gives P Q x) : Gives P (fun _ => True) x :=
  Prog.OnlyTo.mono h fun _ _ _ _ => trivial

variable (c) in
/-- The arguments are of the vault that the configuration describes. -/
structure OfDerivation (arguments : Payload floats) : Prop where
  chainId : Json.get chainIdKey arguments = some (.int c.chainIdValue)
  factory : Json.get factoryKey arguments = some (.str (strOf c.mandatedFactoryAddress))
  asset : Json.get assetKey arguments = some (.str (strOf c.mandatedVaultAssetAddress))
  name : Json.get nameKey arguments = some (.str (strOf c.mandatedVaultName))
  symbol : Json.get symbolKey arguments = some (.str (strOf c.mandatedVaultSymbol))
  authority : Json.get authorityKey arguments = some (.str (strOf c.mandatedVaultAuthority))
  salt : Json.get saltKey arguments = some (.str (strOf c.mandatedVaultSalt))

variable (c around) in
/-- The arguments are the context of this account: its vault, its authority and its executor, and
    the limits of what they may do together. -/
structure OfAccount (f : Funded) (root : Text) (arguments : Payload floats) : Prop where
  agent : Json.get agentIdKey arguments = some (.str (agentId f))
  chainId : Json.get chainIdKey arguments = some (.int c.chainIdValue)
  vault : ∃ vault, Meant c around vault ∧ Json.get vaultKey arguments = some (.str vault)
  authority : Json.get authorityKey arguments = some (.str (strOf c.mandatedVaultAuthority))
  executor : ∃ executor, c.mandatedExecutorAddress around = some executor
    ∧ Json.get executorKey arguments = some (.str executor)
  policy : Json.get fundingPolicyRefKey arguments = some (.str (policyId f))
  defaults : Json.get defaultsKey arguments = some (.obj (mandateDefaults root))

variable (c around) in
/-- What a command may tell the process: it asks for the health of the vault that is meant; it
    plans a bootstrap of the configured vault, and has no context and no policy made by it; a
    deposit has the transaction prepared that creates this vault; and who wants an account to be
    funded has its context made, a policy that allows nobody but this account to receive nothing
    but the configured token, a plan to fund it by five USDT at most, and a session of the plan
    that the process has answered with. -/
inductive Harmless (prepares : Bool) (Funds : Funded → Text → Prop) : Payload floats → Prop
  | health {vault : Text} (arguments : Payload floats) :
      Meant c around vault → Json.get vaultKey arguments = some (.str vault) →
      Json.get chainIdKey arguments = some (.int c.chainIdValue) →
      Harmless prepares Funds (Client.callParams healthTool arguments)
  | predict (arguments : Payload floats) :
      OfDerivation c arguments → Harmless prepares Funds (Client.callParams predictTool arguments)
  | bootstrap (arguments : Payload floats) :
      OfDerivation c arguments →
      Json.get modeKey arguments = some (.str "plan".toList) →
      Json.get createAccountContextKey arguments = some (.bool false) →
      Json.get createFundingPolicyKey arguments = some (.bool false) →
      Harmless prepares Funds (Client.callParams bootstrapTool arguments)
  | prepare (arguments : Payload floats) :
      prepares = true → OfDerivation c arguments →
      Json.get fromKey arguments = some (.str (strOf c.mandatedVaultAuthority)) →
      Harmless prepares Funds (Client.callParams prepareTool arguments)
  | context {f : Funded} {root : Text} (arguments : Payload floats) :
      Funds f root → OfAccount c around f root arguments →
      Harmless prepares Funds (Client.callParams contextTool arguments)
  | policy {f : Funded} {root : Text} (arguments : Payload floats) :
      Funds f root →
      Json.get allowedRecipientsKey arguments = some (.arr [.str f.predictAccountAddress]) →
      Json.get allowedTokenAddressesKey arguments
        = some (.arr [.str (strOf c.mandatedVaultAssetAddress)]) →
      Harmless prepares Funds (Client.callParams policyTool arguments)
  | plan {f : Funded} {root : Text} (arguments target : Payload floats) (amount : Nat) :
      Funds f root → Json.get fundingTargetKey arguments = some (.obj target) →
      Json.get recipientKey target = some (.str f.predictAccountAddress) →
      Json.get tokenAddressKey target = some (.str (strOf c.mandatedVaultAssetAddress)) →
      Json.get requiredAmountRawKey target = some (.str (decimal amount)) →
      amount ≤ 5 * 10 ^ 18 →
      Harmless prepares Funds (Client.callParams planTool arguments)
  | session {f : Funded} {root : Text} {answer plan : Payload floats} (arguments : Payload floats) :
      Funds f root → around.dump "FundAndActionPlanResult".toList answer = .ok plan →
      Json.get planKey arguments = some (.obj (dropNoneMembers plan)) →
      Harmless prepares Funds (Client.callParams sessionTool arguments)
  | nextStep {f : Funded} {root : Text} {answer result session : Payload floats}
      (arguments : Payload floats) :
      Funds f root → around.dump "FundAndActionSessionCreateResult".toList answer = .ok result →
      Json.get sessionKey result = some (.obj session) →
      Json.get sessionKey arguments = some (.obj (dropNoneMembers session)) →
      Harmless prepares Funds (Client.callParams nextStepTool arguments)

/-- A vault with an address, its asset and its authority, and nothing else. -/
def addressOnly : FlowConfig where
  env := .testnet
  walletModeOverride := some .mandatedVault
  apiKey := none
  privateKey := none
  predictAccountAddress := none
  privyPrivateKey := none
  mandatedVaultAddress := some ['v']
  mandatedFactoryAddress := none
  mandatedVaultAssetAddress := some ['u']
  mandatedVaultName := none
  mandatedVaultSymbol := none
  mandatedVaultAuthority := some ['a']
  mandatedVaultSalt := none
  mandatedAllowedAdaptersRoot := []
  hasMandatedConfigInput := true
  mandatedChainId := none
  mandatedAuthorityPrivateKey := none
  mandatedExecutorPrivateKey := none
  mandatedFundingMaxAmountPerTx := none
  mandatedFundingMaxAmountPerWindow := none
  mandatedFundingWindowSeconds := none

/-- No result is valid, but for those of the funding of an account. -/
def addressOnlyAround : Around nanFloats where
  py := oneToolPython
  up := Predict.asciiUpper
  addressOf key := key
  predicted _ := .error []
  health _ := .error []
  prepared _ := .error []
  bootstrap _ := .error []
  dump _ payload := .ok payload

/-- Every tool says that there is no vault. -/
def noVaultError : Payload nanFloats :=
  [(Secrets.codeKey, .str "VAULT_NOT_DEPLOYED".toList), (messageKey, .str ['?'])]

/-- A tool is called, and answers. -/
def answered (id : Nat) (tool : Text) (arguments structured : Payload nanFloats) :
    Log nanFloats :=
  [said 7 (.request id Secrets.toolsCallText (Client.callParams tool (dropNoneMembers arguments))),
    heard 7 id [(Secrets.structuredContentKey, .obj structured)]]

/-- An answer of the model of the answers, as it is raised. -/
def answerOf {α : Type} : Except McpError α → Except Raised α
  | .ok a => .ok a
  | .error error => .error (.exception (.mcp error.message))

/-- What the model of the answers ends with, as it is raised. -/
def outcomeOf {α : Type} : Except VaultResolution.Failure α → Except Raised α
  | .ok a => .ok a
  | .error (.configError message) => .error (.exception (.other message))
  | .error (.mcpError error) => .error (.exception (.mcp error.message))

variable (c around) in
/-- The server answers as the model says. -/
structure Speaks (respond : (u : Use floats) → u.Reply) (bridge : VaultResolution.Bridge) :
    Prop where
  tools : respond .availableTools = bridge.availableTools
  health : ∀ vault,
    (healthCheck c around vault).run.eval respond = answerOf (bridge.healthCheck vault)
  predicted : (predictVaultAddress c around).run.eval respond
    = answerOf (bridge.predictVaultAddress c.derivation)
  prepared : (prepareCreateVault c around).run.eval respond
    = answerOf (bridge.prepareCreateVault c.derivation)
  bootstrap : (vaultBootstrap c around).run.eval respond
    = answerOf (bridge.vaultBootstrap c.derivation)

variable {respond : (u : Use floats) → u.Reply} {bridge : VaultResolution.Bridge}

theorem eval_bind {α β : Type} (x : Flow floats α) (next : α → Flow floats β) :
    (x >>= next).run.eval respond
      = x.run.eval respond >>= fun a => (next a).run.eval respond := by
  show (Prog.bind x.run _).eval respond = _
  rw [Prog.eval_bind]
  cases x.run.eval respond <;> rfl

theorem outcomeOf_bind {α β : Type} (x : Except VaultResolution.Failure α)
    (next : α → Except VaultResolution.Failure β) :
    outcomeOf (x >>= next) = outcomeOf x >>= fun a => outcomeOf (next a) := by
  cases x with
  | ok a => rfl
  | error failure => cases failure <;> rfl

theorem outcomeOf_mapError {α : Type} (x : Except McpError α) :
    outcomeOf (x.mapError VaultResolution.Failure.mcpError) = answerOf x := by
  cases x <;> rfl

theorem outcomeOf_map {α β : Type} (x : Except McpError α) (g : α → β) :
    outcomeOf ((x.map g).mapError VaultResolution.Failure.mcpError)
      = answerOf x >>= fun a => .ok (g a) := by
  cases x <;> rfl

theorem eval_bootstrapHealth (h : Speaks c around respond bridge)
    (bootstrap : VaultBootstrapResult) :
    (bootstrapHealth c around bootstrap).run.eval respond
      = outcomeOf (VaultResolution.bootstrapHealth bridge bootstrap) := by
  rw [bootstrapHealth, VaultResolution.bootstrapHealth]
  split
  · rw [eval_bind, h.health, outcomeOf_map]
    rfl
  · rfl

theorem eval_resolveBootstrap (h : Speaks c around respond bridge) (includeCreatePrepare : Bool) :
    (resolveBootstrap c around includeCreatePrepare).run.eval respond
      = outcomeOf (VaultResolution.resolveBootstrap c.toConfigFields bridge
          includeCreatePrepare) := by
  rw [resolveBootstrap, VaultResolution.resolveBootstrap, eval_bind, h.bootstrap, outcomeOf_bind,
    outcomeOf_mapError]
  congr 1
  funext bootstrap
  rw [eval_bind, eval_bootstrapHealth h, outcomeOf_bind]
  rfl

theorem eval_checkDeployed (h : Speaks c around respond bridge) (vaultAddress : Text) :
    (checkDeployed c around vaultAddress).run.eval respond
      = outcomeOf (VaultResolution.checkDeployed around.up bridge vaultAddress) := by
  show (Prog.bind (healthCheck c around vaultAddress).run _).eval respond = _
  rw [Prog.eval_bind, h.health, VaultResolution.checkDeployed]
  cases bridge.healthCheck vaultAddress with
  | ok health => rfl
  | error error =>
      show unlessUndeployed around (.error (.exception (.mcp error.message))) = _
      rw [unlessUndeployed]
      dsimp only
      split <;> rfl

theorem eval_prepareCreate (h : Speaks c around respond bridge) (wanted : Bool) :
    (prepareCreate c around wanted).run.eval respond
      = outcomeOf (VaultResolution.prepareCreate c.toConfigFields bridge wanted) := by
  rw [prepareCreate, VaultResolution.prepareCreate]
  split
  · rw [eval_bind, h.prepared, outcomeOf_map]
    rfl
  · rfl

theorem eval_resolveAddress (h : Speaks c around respond bridge) (includeCreatePrepare : Bool)
    (vaultAddress vaultAddressSource : Text) :
    (resolveAddress c around includeCreatePrepare vaultAddress vaultAddressSource).run.eval respond
      = outcomeOf (VaultResolution.resolveAddress around.up c.toConfigFields bridge
          includeCreatePrepare vaultAddress vaultAddressSource) := by
  rw [resolveAddress, VaultResolution.resolveAddress, eval_bind, eval_checkDeployed h,
    outcomeOf_bind]
  congr 1
  funext vaultHealth
  rw [eval_bind, eval_prepareCreate h, outcomeOf_bind]
  rfl

/-- **The vault is the one that the model of the answers resolves.** -/
theorem eval_resolveMandatedVault (h : Speaks c around respond bridge)
    (includeCreatePrepare : Bool) :
    (resolveMandatedVault c around includeCreatePrepare).run.eval respond
      = outcomeOf (VaultResolution.resolveMandatedVault around.up c.toConfigFields bridge
          includeCreatePrepare) := by
  rw [resolveMandatedVault, VaultResolution.resolveMandatedVault]
  split
  · exact eval_resolveAddress h includeCreatePrepare _ _
  split
  · rfl
  have htools : availableTools.run.eval respond = .ok bridge.availableTools :=
    congrArg Except.ok h.tools
  rw [eval_bind, htools]
  show (if bridge.availableTools.contains bootstrapTool then _ else _ : Flow floats _).run.eval
    respond = _
  by_cases hbootstrap : bridge.availableTools.contains bootstrapTool = true
  · have hthere : bridge.availableTools.contains "vault_bootstrap".toList = true := hbootstrap
    rw [if_pos hbootstrap, if_pos hthere]
    exact eval_resolveBootstrap h includeCreatePrepare
  · have hmissing : ¬ bridge.availableTools.contains "vault_bootstrap".toList = true := hbootstrap
    rw [if_neg hbootstrap, if_neg hmissing, eval_bind, h.predicted, outcomeOf_bind,
      outcomeOf_mapError]
    congr 1
    funext predicted
    exact eval_resolveAddress h includeCreatePrepare _ _

def noVaultRespond : (u : Use nanFloats) → u.Reply
  | .availableTools => []
  | .callTool _ _ _ _ => .ok [(errorKey, .obj noVaultError)]

def noVaultMessage (tool : Text) : McpError where
  message := "Mandated-vault MCP tool ".toList ++ tool ++ " failed: ".toList
    ++ "VAULT_NOT_DEPLOYED".toList ++ " ".toList ++ ['?']

def noVaultBridge : VaultResolution.Bridge where
  connect := .ok ()
  availableTools := []
  predictVaultAddress _ := .error (noVaultMessage predictTool)
  vaultBootstrap _ := .error (noVaultMessage bootstrapTool)
  prepareCreateVault _ := .error (noVaultMessage prepareTool)
  healthCheck _ := .error (noVaultMessage healthTool)

theorem speaks_noVault : Speaks addressOnly addressOnlyAround noVaultRespond noVaultBridge where
  tools := rfl
  health _ := rfl
  predicted := rfl
  prepared := rfl
  bootstrap := rfl

/-- **A deposit over the bridge is the one of the model of the answers**: a run against a server
    that answers as the model says ends as the model does, with the same details or the same
    error. -/
theorem deposit_refines (h : Speaks c around respond bridge) (hconnect : bridge.connect = .ok ())
    {log : List (Event (Use floats) Use.Reply)} {r : Except Raised (Loaded floats)}
    (hrun : (Command.mandatedDeposit.flow c around).run.Does log r)
    (hlog : ∀ e ∈ log, e.answer = respond e.op) :
    r = (outcomeOf (VaultResolution.getMandatedDepositDetails around.up c.toConfigFields
      bridge)).map Loaded.deposit := by
  rw [hrun.eval hlog]
  show (resolveMandatedVault c around true >>= _).run.eval respond = _
  rw [eval_bind, eval_resolveMandatedVault h, VaultResolution.getMandatedDepositDetails, hconnect]
  show _ = (outcomeOf (VaultResolution.resolveMandatedVault around.up c.toConfigFields bridge true
    >>= _)).map Loaded.deposit
  rw [outcomeOf_bind]
  cases outcomeOf (VaultResolution.resolveMandatedVault around.up c.toConfigFields bridge true) with
  | ok resolution => rfl
  | error raised => rfl

theorem deposit_refines_noVault :
    (Command.mandatedDeposit.flow addressOnly addressOnlyAround).run.eval noVaultRespond
      = (outcomeOf (VaultResolution.getMandatedDepositDetails Predict.asciiUpper
        addressOnly.toConfigFields noVaultBridge)).map Loaded.deposit := by
  obtain ⟨log, hrun, hlog⟩ := Prog.does_eval noVaultRespond
    (Command.mandatedDeposit.flow addressOnly addressOnlyAround).run
  exact deposit_refines speaks_noVault rfl hrun hlog

end WalletFlows

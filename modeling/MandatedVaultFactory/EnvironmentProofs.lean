import MandatedVaultFactory.RedactionProofs
import MandatedVaultFactory.WalletFlowsProofs

/-!
# The account of an environment

The configuration is read from some two dozen variables of the environment, and most ways to set
them are refused.

* **`fromEnv`** — the code.
* **`Account`** — what an accepted configuration is about: whose key signs, and which vault pays.
* **`fromEnv_describes`** — an environment is accepted exactly if it describes an account, and
  then it describes one.
* **`fromEnv_environ`** — an account that is written down as an environment is read back. -/

namespace Environments

open Texts Predict VaultResolution
open WalletFlows (FlowConfig)

/-! ## Variables -/

/-- The variables that are read. -/
inductive Variable where
  | env | storageDir | walletMode | apiKey
  | privateKey | accountAddress | privyPrivateKey
  | vaultAddress | factoryAddress | vaultAssetAddress | vaultName | vaultSymbol | vaultAuthority
  | vaultSalt
  | authorityPrivateKey | executorPrivateKey | mcpCommand | contractVersion | chainId
  | allowedAdaptersRoot | fundingMaxAmountPerTx | fundingMaxAmountPerWindow | fundingWindowSeconds
  | openrouterApiKey | model | apiBaseUrl
deriving DecidableEq

namespace Variable

def name : Variable → Text
  | env => "PREDICT_ENV".toList
  | storageDir => "PREDICT_STORAGE_DIR".toList
  | walletMode => "PREDICT_WALLET_MODE".toList
  | apiKey => "PREDICT_API_KEY".toList
  | privateKey => "PREDICT_PRIVATE_KEY".toList
  | accountAddress => "PREDICT_ACCOUNT_ADDRESS".toList
  | privyPrivateKey => "PREDICT_PRIVY_PRIVATE_KEY".toList
  | vaultAddress => "ERC_MANDATED_VAULT_ADDRESS".toList
  | factoryAddress => "ERC_MANDATED_FACTORY_ADDRESS".toList
  | vaultAssetAddress => "ERC_MANDATED_VAULT_ASSET_ADDRESS".toList
  | vaultName => "ERC_MANDATED_VAULT_NAME".toList
  | vaultSymbol => "ERC_MANDATED_VAULT_SYMBOL".toList
  | vaultAuthority => "ERC_MANDATED_VAULT_AUTHORITY".toList
  | vaultSalt => "ERC_MANDATED_VAULT_SALT".toList
  | authorityPrivateKey => "ERC_MANDATED_AUTHORITY_PRIVATE_KEY".toList
  | executorPrivateKey => "ERC_MANDATED_EXECUTOR_PRIVATE_KEY".toList
  | mcpCommand => "ERC_MANDATED_MCP_COMMAND".toList
  | contractVersion => "ERC_MANDATED_CONTRACT_VERSION".toList
  | chainId => "ERC_MANDATED_CHAIN_ID".toList
  | allowedAdaptersRoot => "ERC_MANDATED_ALLOWED_ADAPTERS_ROOT".toList
  | fundingMaxAmountPerTx => "ERC_MANDATED_FUNDING_MAX_AMOUNT_PER_TX".toList
  | fundingMaxAmountPerWindow => "ERC_MANDATED_FUNDING_MAX_AMOUNT_PER_WINDOW".toList
  | fundingWindowSeconds => "ERC_MANDATED_FUNDING_WINDOW_SECONDS".toList
  | openrouterApiKey => "OPENROUTER_API_KEY".toList
  | model => "PREDICT_MODEL".toList
  | apiBaseUrl => "PREDICT_API_BASE_URL".toList

def all : List Variable :=
  [env, storageDir, walletMode, apiKey, privateKey, accountAddress, privyPrivateKey, vaultAddress,
    factoryAddress, vaultAssetAddress, vaultName, vaultSymbol, vaultAuthority, vaultSalt,
    authorityPrivateKey, executorPrivateKey, mcpCommand, contractVersion, chainId,
    allowedAdaptersRoot, fundingMaxAmountPerTx, fundingMaxAmountPerWindow, fundingWindowSeconds,
    openrouterApiKey, model, apiBaseUrl]

theorem mem_all (v : Variable) : v ∈ all := by
  cases v <;> simp [all]

/-- The parameters a vault is derived from. -/
def derivation : List Variable :=
  [factoryAddress, vaultAssetAddress, vaultName, vaultSymbol, vaultAuthority, vaultSalt]

/-- `MANDATED_INPUT_ENV_NAMES`. -/
def mandatedInputs : List Variable :=
  [vaultAddress, factoryAddress, vaultAssetAddress, vaultName, vaultSymbol, vaultAuthority,
    vaultSalt, authorityPrivateKey, executorPrivateKey, chainId, allowedAdaptersRoot,
    fundingMaxAmountPerTx, fundingMaxAmountPerWindow, fundingWindowSeconds]

/-- Whose key signs, and which vault pays. -/
def identity : List Variable :=
  [privateKey, accountAddress, privyPrivateKey, vaultAddress] ++ derivation

/-- The secrets that are taken out of an error. -/
def secrets : List Variable :=
  [apiKey, privateKey, privyPrivateKey, authorityPrivateKey, executorPrivateKey, openrouterApiKey]

end Variable

/-- `Mapping[str, str]`. -/
abbrev Environ := List (Text × Text)

/-- `_value_or_none(raw)`. -/
def valueOrNone (raw : Option Text) : Option Text :=
  raw.bind fun text => if strip text = [] then none else some (strip text)

namespace Environ

/-- `source.get(name)`. -/
def get (source : Environ) (v : Variable) : Option Text := Json.get v.name source

/-- The variable without white space around it, if it is set. -/
def value (source : Environ) (v : Variable) : Option Text := valueOrNone (source.get v)

end Environ

/-! ## The code -/

/-- `PredictConfig`: what the flows read, and the rest. -/
structure Config extends FlowConfig where
  storageDir : Text
  mandatedMcpCommand : Text
  mandatedContractVersion : Text
  openrouterApiKey : Option Text
  modelName : Option Text
  apiBaseUrl : Text

/-- What goes wrong while a configuration is read. -/
inductive SourceError where
  /-- `ValueError` of `Path(value).expanduser()`. -/
  | notAPath (value : Text)
  /-- `ValueError` of `WalletMode(value)`. -/
  | notAMode (value : Text)
  /-- `ValueError` of `int(value)`. -/
  | notANumber (value : Text)
  /-- `ValidationError`, with the message of the validator. -/
  | invalid (config : Config) (message : Text)

inductive Failure where
  /-- `ValueError` of `RuntimeEnv(value)`, which nothing catches. -/
  | valueError (value : Text)
  /-- `RuntimeError` of `Path(value).expanduser()`, which nothing catches either. -/
  | runtimeError
  | configError (message : Text)

/-- Why `Path(value).expanduser()` raises: there is no home directory, or the name of a user is
    none. -/
inductive PathError where
  | runtimeError
  | valueError

/-- What the standard library and pydantic do with a text. -/
structure Library where
  expanduser : Text → Except PathError Text
  int : Text → Option Int
  str : SourceError → Text

/-- `RuntimeEnv(value)`. -/
def runtimeEnvOf (value : Text) : Option RuntimeEnv :=
  if value = "mainnet".toList then some .mainnet
  else if value = "testnet".toList then some .testnet
  else if value = "test-fixture".toList then some .testFixture
  else none

/-- `mode.value`. -/
def modeText : WalletMode → Text
  | .readOnly => "read-only".toList
  | .eoa => "eoa".toList
  | .predictAccount => "predict-account".toList
  | .mandatedVault => "mandated-vault".toList

/-- `WalletMode(value)`. -/
def walletModeOf (value : Text) : Option WalletMode :=
  [WalletMode.readOnly, .eoa, .predictAccount, .mandatedVault].find? fun mode =>
    modeText mode = value

/-- `_wallet_mode_or_none`. -/
def walletModeOrNone (value : Option Text) : Except SourceError (Option WalletMode) :=
  match value with
  | none => .ok none
  | some text =>
      match walletModeOf text with
      | some mode => .ok (some mode)
      | none => .error (.notAMode text)

/-- `_int_or_none`. -/
def intOrNone (lib : Library) (value : Option Text) : Except SourceError (Option Int) :=
  match value with
  | none => .ok none
  | some text =>
      match lib.int text with
      | some n => .ok (some n)
      | none => .error (.notANumber text)

def mcpCommandDefault : Text := "erc-mandated-mcp".toList
def contractVersionDefault : Text := "v0.3.0-agent-contract".toList
def allowedAdaptersRootDefault : Text := "0x".toList ++ List.replicate 64 '1'

/-- `_default_api_base_url`. -/
def defaultApiBaseUrl : RuntimeEnv → Text
  | .mainnet => "https://api.predict.fun".toList
  | _ => "https://api-testnet.predict.fun".toList

/-- The arguments with which `from_env` calls the class, the converted ones apart. -/
def configOf (runtimeEnv : RuntimeEnv) (source : Environ) (storageDir : Text)
    (walletModeOverride : Option WalletMode) (mandatedChainId : Option Int)
    (mandatedFundingWindowSeconds : Option Int) : Config where
  env := runtimeEnv
  storageDir := storageDir
  walletModeOverride := walletModeOverride
  apiKey := source.value .apiKey
  privateKey := source.value .privateKey
  predictAccountAddress := source.value .accountAddress
  privyPrivateKey := source.value .privyPrivateKey
  mandatedVaultAddress := source.value .vaultAddress
  mandatedFactoryAddress := source.value .factoryAddress
  mandatedVaultAssetAddress := source.value .vaultAssetAddress
  mandatedVaultName := source.value .vaultName
  mandatedVaultSymbol := source.value .vaultSymbol
  mandatedVaultAuthority := source.value .vaultAuthority
  mandatedVaultSalt := source.value .vaultSalt
  mandatedAuthorityPrivateKey := source.value .authorityPrivateKey
  mandatedExecutorPrivateKey := source.value .executorPrivateKey
  mandatedMcpCommand := (source.value .mcpCommand).getD mcpCommandDefault
  mandatedContractVersion := (source.value .contractVersion).getD contractVersionDefault
  mandatedChainId := mandatedChainId
  mandatedAllowedAdaptersRoot := (source.value .allowedAdaptersRoot).getD allowedAdaptersRootDefault
  mandatedFundingMaxAmountPerTx := source.value .fundingMaxAmountPerTx
  mandatedFundingMaxAmountPerWindow := source.value .fundingMaxAmountPerWindow
  mandatedFundingWindowSeconds := mandatedFundingWindowSeconds
  hasMandatedConfigInput := Variable.mandatedInputs.any fun v => (source.value v).isSome
  openrouterApiKey := source.value .openrouterApiKey
  modelName := source.value .model
  apiBaseUrl := (source.value .apiBaseUrl).getD (defaultApiBaseUrl runtimeEnv)

/-- The arguments after the directory, in the order in which they are converted. -/
def readConfig (lib : Library) (runtimeEnv : RuntimeEnv) (source : Environ) (storageDir : Text) :
    Except SourceError Config := do
  let walletModeOverride ← walletModeOrNone (source.value .walletMode)
  let mandatedChainId ← intOrNone lib (source.value .chainId)
  let mandatedFundingWindowSeconds ← intOrNone lib (source.value .fundingWindowSeconds)
  return configOf runtimeEnv source storageDir walletModeOverride mandatedChainId
    mandatedFundingWindowSeconds

/-- A configuration that has been validated. -/
structure Accepted extends Config where
  valid : toConfig.validateRuntimeContract = .ok ()

/-- `env or os.environ`. -/
def sourceOf (environ : Environ) : Option Environ → Environ
  | some (entry :: entries) => entry :: entries
  | _ => environ

/-- The `ConfigError` of `from_env`. -/
def refused {α : Type} (lib : Library) (source : Environ) (error : SourceError) :
    Except Failure α :=
  .error (.configError (Redaction.redactText (lib.str error) (Variable.secrets.map source.get)))

/-- `PREDICT_ENV`, which is not stripped. -/
def Environ.runtimeEnv (source : Environ) : Text := (source.get .env).getD "testnet".toList

/-- `PREDICT_STORAGE_DIR`, which is not stripped either. -/
def Environ.storageDir (source : Environ) : Text :=
  (source.get .storageDir).getD "~/.openclaw/predict".toList

/-- `PredictConfig.from_env`. -/
def fromEnv (lib : Library) (environ : Environ) (env : Option Environ) :
    Except Failure Accepted :=
  let source := sourceOf environ env
  match runtimeEnvOf source.runtimeEnv with
  | none => .error (.valueError source.runtimeEnv)
  | some runtimeEnv =>
      match lib.expanduser source.storageDir with
      | .error .runtimeError => .error .runtimeError
      | .error .valueError => refused lib source (.notAPath source.storageDir)
      | .ok storageDir =>
          match readConfig lib runtimeEnv source storageDir with
          | .error error => refused lib source error
          | .ok config =>
              match h : config.validateRuntimeContract with
              | .error message => refused lib source (.invalid config message)
              | .ok () => .ok ⟨config, h⟩

/-! ## Accounts -/

/-- A text as a variable holds one: there is something, and no white space around it. -/
structure Word where
  text : Text
  ne_nil : text ≠ []
  stripped : strip text = text
deriving DecidableEq

/-- What a vault is derived from, all of it. -/
structure Factory where
  factory : Word
  asset : Word
  name : Word
  symbol : Word
  authority : Word
  salt : Word
deriving DecidableEq

def Factory.settings (d : Factory) : Variable → Option Word
  | .factoryAddress => some d.factory
  | .vaultAssetAddress => some d.asset
  | .vaultName => some d.name
  | .vaultSymbol => some d.symbol
  | .vaultAuthority => some d.authority
  | .vaultSalt => some d.salt
  | _ => none

/-- A vault: by its address, by what it is derived from, or by both. -/
structure VaultRef where
  address : Option Word
  derivation : Option Factory
  given : address.isSome ∨ derivation.isSome
deriving DecidableEq

def VaultRef.settings (vault : VaultRef) : Variable → Option Word
  | .vaultAddress => vault.address
  | v => vault.derivation.bind fun d => d.settings v

/-- What a configuration is about. -/
inductive Account where
  | nobody
  | eoa (key : Word)
  | predictAccount (address key : Word) (vault : Option VaultRef)
  | mandatedVault (vault : Option VaultRef)
deriving DecidableEq

namespace Account

def mode : Account → WalletMode
  | nobody => .readOnly
  | eoa _ => .eoa
  | predictAccount _ _ _ => .predictAccount
  | mandatedVault _ => .mandatedVault

def vault : Account → Option VaultRef
  | predictAccount _ _ vault => vault
  | mandatedVault vault => vault
  | _ => none

/-- The key that signs, and the account it signs for where that is not its own. -/
def signer : Account → Option (Word × Option Word)
  | eoa key => some (key, none)
  | predictAccount address key _ => some (key, some address)
  | _ => none

/-- The mode as a word. -/
def modeWord (mode : WalletMode) : Word where
  text := modeText mode
  ne_nil := by cases mode <;> decide
  stripped := by cases mode <;> decide

/-- What each variable is set to. -/
def settings (A : Account) : Variable → Option Word
  | .walletMode => some (modeWord A.mode)
  | .privateKey => match A with
    | eoa key => some key
    | _ => none
  | .accountAddress => match A with
    | predictAccount address _ _ => some address
    | _ => none
  | .privyPrivateKey => match A with
    | predictAccount _ key _ => some key
    | _ => none
  | v => A.vault.bind fun vault => vault.settings v

/-- The account as an environment. -/
def environ (A : Account) : Environ :=
  Variable.all.filterMap fun v => (A.settings v).map fun word => (v.name, word.text)

end Account

/-- The field that one of the identity variables fills. -/
def field (c : ConfigFields) : Variable → Option Text
  | .privateKey => c.privateKey
  | .accountAddress => c.predictAccountAddress
  | .privyPrivateKey => c.privyPrivateKey
  | .vaultAddress => c.mandatedVaultAddress
  | .factoryAddress => c.mandatedFactoryAddress
  | .vaultAssetAddress => c.mandatedVaultAssetAddress
  | .vaultName => c.mandatedVaultName
  | .vaultSymbol => c.mandatedVaultSymbol
  | .vaultAuthority => c.mandatedVaultAuthority
  | .vaultSalt => c.mandatedVaultSalt
  | _ => none

/-- The configuration is about the account. -/
structure Holds (c : ConfigFields) (A : Account) : Prop where
  mode : c.walletMode = A.mode
  identity : ∀ v ∈ Variable.identity, field c v = (A.settings v).map Word.text
  inputs : c.hasMandatedConfigInput = A.vault.isSome

/-- The environment describes the account: it is set in all that makes the account up and in
    nothing that would make up another. -/
structure Describes (lib : Library) (source : Environ) (A : Account) : Prop where
  env : ∃ runtimeEnv, runtimeEnvOf source.runtimeEnv = some runtimeEnv
    ∧ (runtimeEnv = .mainnet → source.value .apiKey ≠ none)
  storage : ∃ storageDir, lib.expanduser source.storageDir = .ok storageDir
  mode : source.value .walletMode = some (modeText A.mode)
    ∨ (source.value .walletMode = none ∧ A.vault = none ∧ A.mode ≠ .mandatedVault)
  root : ∀ root ∈ source.value .allowedAdaptersRoot, isHex32 root = true
  numbers : ∀ v ∈ [Variable.chainId, .fundingWindowSeconds], ∀ text ∈ source.value v,
    lib.int text ≠ none
  identity : ∀ v ∈ Variable.identity, source.value v = (A.settings v).map Word.text
  alone : A.vault = none → ∀ v ∈ Variable.mandatedInputs, source.value v = none

/-! ## Words -/

theorem trimmed_strip (t : Text) : Trimmed (strip t) := by
  have hlast : ∀ (u : Text), ∀ c ∈ (u.dropWhile isSpace).head?, isSpace c = false := by
    intro u
    induction u with
    | nil =>
        intro c hc
        cases hc
    | cons d u ih =>
        by_cases hd : isSpace d = true
        · rw [List.dropWhile_cons_of_pos hd]
          exact ih
        · rw [List.dropWhile_cons_of_neg hd]
          intro c hc
          obtain rfl : d = c := Option.some.inj hc
          exact Bool.eq_false_iff.mpr hd
  constructor
  · intro c hc
    refine hlast t c ?_
    have hprefix : strip t <+: t.dropWhile isSpace := by
      rw [strip, ← List.reverse_suffix, List.reverse_reverse]
      exact List.dropWhile_suffix isSpace
    obtain ⟨rest, hrest⟩ := hprefix
    rw [← hrest, List.head?_append_of_ne_nil]
    · exact hc
    · intro hnil
      rw [hnil] at hc
      cases hc
  · intro c hc
    rw [strip, List.getLast?_reverse] at hc
    exact hlast _ c hc

/-- The word in a variable. -/
def Environ.word (source : Environ) (v : Variable) : Option Word :=
  (source.get v).bind fun text =>
    if h : strip text = [] then none
    else some ⟨strip text, h, strip_of_trimmed (trimmed_strip text)⟩

theorem value_eq (source : Environ) (v : Variable) :
    source.value v = (source.word v).map Word.text := by
  rw [Environ.value, valueOrNone, Environ.word]
  cases source.get v with
  | none => rfl
  | some text =>
      show (if strip text = [] then none else some (strip text)) = Option.map _ (dite ..)
      split_ifs <;> rfl

theorem text_injective : Function.Injective Word.text := by
  rintro ⟨t, _, _⟩ ⟨u, _, _⟩ h
  obtain rfl : t = u := h
  rfl

theorem map_text_inj {w w' : Option Word} : w.map Word.text = w'.map Word.text ↔ w = w' :=
  (Option.map_injective text_injective).eq_iff

@[simp] theorem truthy_text (w : Option Word) : truthy (w.map Word.text) = w.isSome := by
  cases w with
  | none => rfl
  | some w =>
      obtain ⟨t, hne, _⟩ := w
      cases t with
      | nil => exact absurd rfl hne
      | cons c t => rfl

/-! ## Accounts and what they are set to -/

theorem factory_ext {D E : Option Factory}
    (h : ∀ v ∈ Variable.derivation, (D.bind fun d => d.settings v) = E.bind fun d => d.settings v) :
    D = E := by
  simp only [Variable.derivation, List.forall_mem_cons] at h
  obtain ⟨h1, h2, h3, h4, h5, h6, _⟩ := h
  cases D with
  | none =>
      cases E with
      | none => rfl
      | some e => exact nomatch h1
  | some d =>
      cases E with
      | none => exact nomatch h1
      | some e =>
          obtain ⟨f, a, n, s, u, t⟩ := d
          obtain rfl := Option.some.inj h1
          obtain rfl := Option.some.inj h2
          obtain rfl := Option.some.inj h3
          obtain rfl := Option.some.inj h4
          obtain rfl := Option.some.inj h5
          obtain rfl := Option.some.inj h6
          rfl

theorem settings_of_derivation (vault : VaultRef) {v : Variable} (hv : v ∈ Variable.derivation) :
    vault.settings v = vault.derivation.bind fun d => d.settings v := by
  simp only [Variable.derivation, List.mem_cons, List.not_mem_nil, or_false] at hv
  rcases hv with rfl | rfl | rfl | rfl | rfl | rfl <;> rfl

theorem vault_ext {V W : Option VaultRef}
    (h : ∀ v ∈ Variable.vaultAddress :: Variable.derivation,
      (V.bind fun vault => vault.settings v) = W.bind fun vault => vault.settings v) : V = W := by
  obtain ⟨haddress, hderivation⟩ := List.forall_mem_cons.mp h
  have hfactory : V.bind VaultRef.derivation = W.bind VaultRef.derivation := by
    refine factory_ext fun v hv => ?_
    have := hderivation v hv
    simp only [settings_of_derivation _ hv] at this
    simpa only [Option.bind_assoc] using this
  have haddress : V.bind VaultRef.address = W.bind VaultRef.address := haddress
  cases V with
  | none =>
      cases W with
      | none => rfl
      | some w =>
          obtain ⟨a, d, hgiven⟩ := w
          obtain rfl : none = a := haddress
          obtain rfl : none = d := hfactory
          exact absurd hgiven (by decide)
  | some u =>
      obtain ⟨a, d, hgiven⟩ := u
      cases W with
      | none =>
          obtain rfl : a = none := haddress
          obtain rfl : d = none := hfactory
          exact absurd hgiven (by decide)
      | some w =>
          obtain ⟨a', d', _⟩ := w
          obtain rfl : a = a' := haddress
          obtain rfl : d = d' := hfactory
          rfl

theorem settings_of_vault (A : Account) {v : Variable}
    (hv : v ∈ Variable.vaultAddress :: Variable.derivation) :
    A.settings v = A.vault.bind fun vault => vault.settings v := by
  simp only [Variable.derivation, List.mem_cons, List.not_mem_nil, or_false] at hv
  rcases hv with rfl | rfl | rfl | rfl | rfl | rfl | rfl <;> rfl

theorem forall_identity {p : Variable → Prop} : (∀ v ∈ Variable.identity, p v)
    ↔ p .privateKey ∧ p .accountAddress ∧ p .privyPrivateKey
      ∧ ∀ v ∈ Variable.vaultAddress :: Variable.derivation, p v := by
  show (∀ v ∈ Variable.privateKey :: .accountAddress :: .privyPrivateKey :: .vaultAddress
    :: Variable.derivation, p v) ↔ _
  simp only [List.forall_mem_cons]

/-- An account is what it is set to. -/
theorem account_ext {A B : Account} (hmode : A.mode = B.mode)
    (h : ∀ v ∈ Variable.identity, A.settings v = B.settings v) : A = B := by
  obtain ⟨hkey, haddress, hprivy, hidentity⟩ := forall_identity.mp h
  have hvault : A.vault = B.vault := by
    refine vault_ext fun v hv => ?_
    rw [← settings_of_vault A hv, ← settings_of_vault B hv]
    exact hidentity v hv
  cases A with
  | nobody => cases B <;> first | rfl | exact nomatch hmode
  | eoa key =>
      cases B with
      | eoa key' => exact congrArg Account.eoa (Option.some.inj hkey)
      | _ => exact nomatch hmode
  | predictAccount address key vault =>
      cases B with
      | predictAccount address' key' vault' =>
          obtain rfl := Option.some.inj haddress
          obtain rfl := Option.some.inj hprivy
          exact congrArg (Account.predictAccount address key) hvault
      | _ => exact nomatch hmode
  | mandatedVault vault =>
      cases B with
      | mandatedVault vault' => exact congrArg Account.mandatedVault hvault
      | _ => exact nomatch hmode

/-- A configuration is about one account. -/
theorem Holds.unique {c : ConfigFields} {A B : Account} (hA : Holds c A) (hB : Holds c B) :
    A = B :=
  account_ext (hA.mode.symm.trans hB.mode) fun v hv =>
    map_text_inj.mp ((hA.identity v hv).symm.trans (hB.identity v hv))

/-! ## What the validator accepts -/

/-- What is given of a vault is enough for one. -/
def VaultGiven (c : ConfigFields) : Prop :=
  c.hasMandatedConfigInput = true →
    (c.derivationFields.any truthy = true → c.hasMandatedVaultDerivation = true)
      ∧ (truthy c.mandatedVaultAddress = true ∨ c.hasMandatedVaultDerivation = true)

theorem validateMandatedOverlayInputs_ok (c : ConfigFields) :
    c.validateMandatedOverlayInputs = .ok () ↔ VaultGiven c := by
  rw [ConfigFields.validateMandatedOverlayInputs, VaultGiven]
  cases c.hasMandatedConfigInput <;> cases c.derivationFields.any truthy
    <;> cases c.hasMandatedVaultDerivation <;> cases truthy c.mandatedVaultAddress
    <;> simp [bind, Except.bind, pure, Except.pure, throw, throwThe, MonadExceptOf.throw]

/-- The credentials that a mode needs, and no others. -/
structure Credentials (c : ConfigFields) (mode : WalletMode) : Prop where
  key : c.privateKey.isSome = decide (mode = .eoa)
  address : truthy c.predictAccountAddress = decide (mode = .predictAccount)
  privy : c.privyPrivateKey.isSome = decide (mode = .predictAccount)

/-- The vault that a mode has room for. -/
def VaultFits (c : ConfigFields) : WalletMode → Prop
  | .readOnly | .eoa => c.hasMandatedConfigInput = false
  | .predictAccount | .mandatedVault => VaultGiven c

theorem validateMode_some {c : ConfigFields} {mode : WalletMode}
    (h : c.walletModeOverride = some mode) :
    c.validateMode = .ok () ↔ Credentials c mode ∧ VaultFits c mode := by
  have hcredentials : Credentials c mode ↔ c.privateKey.isSome = decide (mode = .eoa)
      ∧ truthy c.predictAccountAddress = decide (mode = .predictAccount)
      ∧ c.privyPrivateKey.isSome = decide (mode = .predictAccount) :=
    ⟨fun h => ⟨h.key, h.address, h.privy⟩, fun h => ⟨h.1, h.2.1, h.2.2⟩⟩
  rw [hcredentials, ConfigFields.validateMode, h]
  cases mode with
  | readOnly =>
      show _ ↔ _ ∧ c.hasMandatedConfigInput = false
      cases c.privateKey.isSome <;> cases truthy c.predictAccountAddress
        <;> cases c.privyPrivateKey.isSome <;> cases c.hasMandatedConfigInput
        <;> simp [pure, Except.pure, throw, throwThe, MonadExceptOf.throw]
  | eoa =>
      show _ ↔ _ ∧ c.hasMandatedConfigInput = false
      cases c.privateKey.isSome <;> cases truthy c.predictAccountAddress
        <;> cases c.privyPrivateKey.isSome <;> cases c.hasMandatedConfigInput
        <;> simp [bind, Except.bind, pure, Except.pure, throw, throwThe, MonadExceptOf.throw]
  | predictAccount =>
      show _ ↔ _ ∧ VaultGiven c
      rw [← validateMandatedOverlayInputs_ok]
      cases c.privateKey.isSome <;> cases truthy c.predictAccountAddress
        <;> cases c.privyPrivateKey.isSome
        <;> simp [bind, Except.bind, throw, throwThe, MonadExceptOf.throw]
  | mandatedVault =>
      show _ ↔ _ ∧ VaultGiven c
      rw [← validateMandatedOverlayInputs_ok]
      cases c.privateKey.isSome <;> cases truthy c.predictAccountAddress
        <;> cases c.privyPrivateKey.isSome
        <;> simp [bind, Except.bind, throw, throwThe, MonadExceptOf.throw]

/-- Where no mode is asked for the credentials say which it is. -/
theorem validateMode_none {c : ConfigFields} (h : c.walletModeOverride = none) :
    c.validateMode = .ok () ↔ c.hasMandatedConfigInput = false
      ∧ ∃ mode, mode ≠ .mandatedVault ∧ Credentials c mode := by
  rw [ConfigFields.validateMode, h]
  constructor
  · intro hok
    cases hkey : c.privateKey.isSome <;> cases haddress : truthy c.predictAccountAddress
      <;> cases hprivy : c.privyPrivateKey.isSome <;> cases hinput : c.hasMandatedConfigInput
      <;> simp [hkey, haddress, hprivy, hinput, bind, Except.bind, pure, Except.pure, throw,
        throwThe, MonadExceptOf.throw] at hok
    · exact ⟨rfl, .readOnly, by decide, hkey, haddress, hprivy⟩
    · exact ⟨rfl, .predictAccount, by decide, hkey, haddress, hprivy⟩
    · exact ⟨rfl, .eoa, by decide, hkey, haddress, hprivy⟩
  · rintro ⟨hinput, mode, hmode, hkey, haddress, hprivy⟩
    rw [hkey, haddress, hprivy, hinput]
    cases mode <;> rfl

theorem validateRuntimeContract_ok (c : ConfigFields) :
    c.validateRuntimeContract = .ok () ↔ (c.env = .mainnet → truthy c.apiKey = true)
      ∧ isHex32 c.mandatedAllowedAdaptersRoot = true ∧ c.validateMode = .ok () := by
  rw [ConfigFields.validateRuntimeContract]
  by_cases henv : c.env = .mainnet <;> cases truthy c.apiKey
    <;> cases isHex32 c.mandatedAllowedAdaptersRoot
    <;> simp [henv, bind, Except.bind, throw, throwThe, MonadExceptOf.throw]

/-! ## The account of a configuration -/

/-- The fields are filled from words, and a vault is an input. -/
structure Reads (c : ConfigFields) (s : Variable → Option Word) : Prop where
  identity : ∀ v ∈ Variable.identity, field c v = (s v).map Word.text
  inputs : c.hasMandatedConfigInput = false →
    ∀ v ∈ Variable.vaultAddress :: Variable.derivation, s v = none

section Reads

variable {c : ConfigFields} {s : Variable → Option Word}

theorem derivationFields_eq (h : Reads c s) :
    c.derivationFields = Variable.derivation.map fun v => (s v).map Word.text := by
  have hfields : c.derivationFields = Variable.derivation.map (field c) := rfl
  rw [hfields]
  exact List.map_congr_left fun v hv => h.identity v (List.mem_append_right _ hv)

theorem any_derivation (h : Reads c s) :
    c.derivationFields.any truthy = true ↔ ∃ v ∈ Variable.derivation, (s v).isSome = true := by
  rw [derivationFields_eq h]
  simp

theorem all_derivation (h : Reads c s) :
    c.hasMandatedVaultDerivation = true ↔ ∀ v ∈ Variable.derivation, (s v).isSome = true := by
  rw [ConfigFields.hasMandatedVaultDerivation, derivationFields_eq h]
  simp

theorem truthy_field (h : Reads c s) {v : Variable} (hv : v ∈ Variable.identity) :
    truthy (field c v) = (s v).isSome := by
  rw [h.identity v hv, truthy_text]

theorem isSome_field (h : Reads c s) {v : Variable} (hv : v ∈ Variable.identity) :
    (field c v).isSome = (s v).isSome := by
  rw [h.identity v hv, Option.isSome_map]

theorem exists_factory (h : (∃ v ∈ Variable.derivation, (s v).isSome = true) →
      ∀ v ∈ Variable.derivation, (s v).isSome = true) :
    ∃ D : Option Factory, ∀ v ∈ Variable.derivation, s v = D.bind fun d => d.settings v := by
  by_cases hany : ∃ v ∈ Variable.derivation, (s v).isSome = true
  · have hall := h hany
    simp only [Variable.derivation, List.forall_mem_cons, Option.isSome_iff_exists] at hall
    obtain ⟨⟨f, hf⟩, ⟨a, ha⟩, ⟨n, hn⟩, ⟨y, hy⟩, ⟨u, hu⟩, ⟨t, ht⟩, _⟩ := hall
    refine ⟨some ⟨f, a, n, y, u, t⟩, ?_⟩
    simp only [Variable.derivation, List.forall_mem_cons]
    exact ⟨hf, ha, hn, hy, hu, ht, nofun⟩
  · refine ⟨none, fun v hv => ?_⟩
    by_contra hne
    exact hany ⟨v, hv, Option.isSome_iff_ne_none.mpr hne⟩

/-- **What is given of a vault is enough exactly if it is a vault.** -/
theorem vaultGiven_iff (h : Reads c s) : VaultGiven c ↔
    ∃ V : Option VaultRef, V.isSome = c.hasMandatedConfigInput
      ∧ ∀ v ∈ Variable.vaultAddress :: Variable.derivation,
        s v = V.bind fun vault => vault.settings v := by
  have haddress : truthy c.mandatedVaultAddress = (s .vaultAddress).isSome :=
    truthy_field (v := .vaultAddress) h (by decide)
  rw [VaultGiven, any_derivation h, all_derivation h, haddress]
  constructor
  · intro hgiven
    cases hinput : c.hasMandatedConfigInput with
    | false => exact ⟨none, rfl, h.inputs hinput⟩
    | true =>
        obtain ⟨hall, hsome⟩ := hgiven hinput
        obtain ⟨D, hD⟩ := exists_factory hall
        have hvault : (s .vaultAddress).isSome = true ∨ D.isSome = true := by
          rcases hsome with hsome | hsome
          · exact Or.inl hsome
          · have := hsome .factoryAddress (by decide)
            rw [hD .factoryAddress (by decide)] at this
            exact Or.inr (Option.isSome_of_isSome_bind this)
        refine ⟨some ⟨s .vaultAddress, D, hvault⟩, rfl, List.forall_mem_cons.mpr ⟨rfl, ?_⟩⟩
        intro v hv
        rw [hD v hv]
        exact (settings_of_derivation ⟨s .vaultAddress, D, hvault⟩ hv).symm
  · rintro ⟨V, hV, hs⟩ hinput
    rw [hinput] at hV
    obtain ⟨⟨a, D, hgiven⟩, rfl⟩ := Option.isSome_iff_exists.mp hV
    obtain ⟨ha, hD⟩ := List.forall_mem_cons.mp hs
    have hD : ∀ v ∈ Variable.derivation, s v = D.bind fun d => d.settings v := fun v hv =>
      (hD v hv).trans (settings_of_derivation _ hv)
    have hall : D.isSome = true → ∀ v ∈ Variable.derivation, (s v).isSome = true := by
      intro hsome v hv
      obtain ⟨d, rfl⟩ := Option.isSome_iff_exists.mp hsome
      rw [hD v hv]
      simp only [Variable.derivation, List.mem_cons, List.not_mem_nil, or_false] at hv
      rcases hv with rfl | rfl | rfl | rfl | rfl | rfl <;> rfl
    constructor
    · rintro ⟨v, hv, hsome⟩
      rw [hD v hv] at hsome
      exact hall (Option.isSome_of_isSome_bind hsome)
    · rw [ha]
      exact hgiven.imp id hall

/-- What is asked for agrees with the account: it is the account's mode, or nothing, where there
    is no vault. -/
def Asks (c : ConfigFields) (A : Account) : Prop :=
  c.walletModeOverride = some A.mode
    ∨ (c.walletModeOverride = none ∧ A.vault = none ∧ A.mode ≠ .mandatedVault)

theorem credentials_iff (h : Reads c s) (mode : WalletMode) : Credentials c mode ↔
    (s .privateKey).isSome = decide (mode = .eoa)
      ∧ (s .accountAddress).isSome = decide (mode = .predictAccount)
      ∧ (s .privyPrivateKey).isSome = decide (mode = .predictAccount) := by
  have hkey : c.privateKey.isSome = (s .privateKey).isSome :=
    isSome_field (v := .privateKey) h (by decide)
  have haddress : truthy c.predictAccountAddress = (s .accountAddress).isSome :=
    truthy_field (v := .accountAddress) h (by decide)
  have hprivy : c.privyPrivateKey.isSome = (s .privyPrivateKey).isSome :=
    isSome_field (v := .privyPrivateKey) h (by decide)
  rw [← hkey, ← haddress, ← hprivy]
  exact ⟨fun h => ⟨h.key, h.address, h.privy⟩, fun h => ⟨h.1, h.2.1, h.2.2⟩⟩

/-- The account of the credentials of a mode and a vault that it has room for. -/
theorem exists_account (h : Reads c s) {mode : WalletMode} (hcred : Credentials c mode)
    (hfits : VaultFits c mode) : ∃ A : Account, A.mode = mode
      ∧ A.vault.isSome = c.hasMandatedConfigInput
      ∧ ∀ v ∈ Variable.identity, s v = A.settings v := by
  obtain ⟨hkey, haddress, hprivy⟩ := (credentials_iff h mode).mp hcred
  have hnone : ∀ v, (s v).isSome = false → s v = none := fun v hv =>
    Option.isNone_iff_eq_none.mp (Option.isSome_eq_false_iff.mp hv)
  cases mode with
  | readOnly =>
      have hfits : c.hasMandatedConfigInput = false := hfits
      refine ⟨.nobody, rfl, hfits.symm, forall_identity.mpr ⟨?_, ?_, ?_, ?_⟩⟩
      · exact hnone _ hkey
      · exact hnone _ haddress
      · exact hnone _ hprivy
      · intro v hv
        rw [settings_of_vault _ hv]
        exact h.inputs hfits v hv
  | eoa =>
      have hfits : c.hasMandatedConfigInput = false := hfits
      obtain ⟨key, hkey⟩ := Option.isSome_iff_exists.mp hkey
      refine ⟨.eoa key, rfl, hfits.symm, forall_identity.mpr ⟨hkey, ?_, ?_, ?_⟩⟩
      · exact hnone _ haddress
      · exact hnone _ hprivy
      · intro v hv
        rw [settings_of_vault _ hv]
        exact h.inputs hfits v hv
  | predictAccount =>
      obtain ⟨V, hV, hs⟩ := (vaultGiven_iff h).mp hfits
      obtain ⟨address, haddress⟩ := Option.isSome_iff_exists.mp haddress
      obtain ⟨key, hprivy⟩ := Option.isSome_iff_exists.mp hprivy
      refine ⟨.predictAccount address key V, rfl, hV,
        forall_identity.mpr ⟨?_, haddress, hprivy, ?_⟩⟩
      · exact hnone _ hkey
      · intro v hv
        rw [settings_of_vault _ hv]
        exact hs v hv
  | mandatedVault =>
      obtain ⟨V, hV, hs⟩ := (vaultGiven_iff h).mp hfits
      refine ⟨.mandatedVault V, rfl, hV, forall_identity.mpr ⟨?_, ?_, ?_, ?_⟩⟩
      · exact hnone _ hkey
      · exact hnone _ haddress
      · exact hnone _ hprivy
      · intro v hv
        rw [settings_of_vault _ hv]
        exact hs v hv

theorem fits_of_account (h : Reads c s) {A : Account}
    (hinputs : A.vault.isSome = c.hasMandatedConfigInput)
    (hs : ∀ v ∈ Variable.identity, s v = A.settings v) :
    Credentials c A.mode ∧ VaultFits c A.mode := by
  obtain ⟨hkey, haddress, hprivy, hvault⟩ := forall_identity.mp hs
  have hgiven : VaultGiven c := (vaultGiven_iff h).mpr
    ⟨A.vault, hinputs, fun v hv => (hvault v hv).trans (settings_of_vault A hv)⟩
  rw [credentials_iff h, hkey, haddress, hprivy]
  cases A with
  | nobody => exact ⟨⟨rfl, rfl, rfl⟩, hinputs.symm⟩
  | eoa key => exact ⟨⟨rfl, rfl, rfl⟩, hinputs.symm⟩
  | predictAccount address key vault => exact ⟨⟨rfl, rfl, rfl⟩, hgiven⟩
  | mandatedVault vault => exact ⟨⟨rfl, rfl, rfl⟩, hgiven⟩

/-- **A configuration is accepted exactly if it is about an account** that agrees with what is
    asked for. -/
theorem validateMode_iff (h : Reads c s) : c.validateMode = .ok () ↔
    ∃ A : Account, Asks c A ∧ A.vault.isSome = c.hasMandatedConfigInput
      ∧ ∀ v ∈ Variable.identity, s v = A.settings v := by
  constructor
  · intro hok
    cases hask : c.walletModeOverride with
    | some mode =>
        obtain ⟨hcred, hfits⟩ := (validateMode_some hask).mp hok
        obtain ⟨A, rfl, hA⟩ := exists_account h hcred hfits
        exact ⟨A, Or.inl hask, hA⟩
    | none =>
        obtain ⟨hinput, mode, hmode, hcred⟩ := (validateMode_none hask).mp hok
        have hfits : VaultFits c mode := by
          cases mode with
          | mandatedVault => exact absurd rfl hmode
          | predictAccount => exact fun h => absurd h (by rw [hinput]; decide)
          | _ => exact hinput
        obtain ⟨A, rfl, hinputs, hs⟩ := exists_account h hcred hfits
        have hnone : A.vault = none := by
          rw [← Option.not_isSome_iff_eq_none, hinputs, hinput]
          decide
        exact ⟨A, Or.inr ⟨hask, hnone, hmode⟩, hinputs, hs⟩
  · rintro ⟨A, hask | ⟨hask, hnone, hmode⟩, hinputs, hs⟩
    · exact (validateMode_some hask).mpr (fits_of_account h hinputs hs)
    · refine (validateMode_none hask).mpr ⟨?_, A.mode, hmode, (fits_of_account h hinputs hs).1⟩
      rw [← hinputs, hnone]
      rfl

/-- The mode that results is the account's. -/
theorem walletMode_eq (h : Reads c s) {A : Account} (hask : Asks c A)
    (hs : ∀ v ∈ Variable.identity, s v = A.settings v) : c.walletMode = A.mode := by
  obtain ⟨hkey, haddress, hprivy, _⟩ := forall_identity.mp hs
  have hkey : truthy c.privateKey = (A.settings .privateKey).isSome :=
    hkey ▸ truthy_field (v := .privateKey) h (by decide)
  have haddress : truthy c.predictAccountAddress = (A.settings .accountAddress).isSome :=
    haddress ▸ truthy_field (v := .accountAddress) h (by decide)
  have hprivy : truthy c.privyPrivateKey = (A.settings .privyPrivateKey).isSome :=
    hprivy ▸ truthy_field (v := .privyPrivateKey) h (by decide)
  rw [ConfigFields.walletMode]
  rcases hask with hask | ⟨hask, _, hmode⟩
  · rw [hask]
  · rw [hask, hkey, haddress, hprivy]
    cases A with
    | mandatedVault vault => exact absurd rfl hmode
    | _ => rfl

end Reads

/-! ## What is read from the environment -/

theorem walletModeOf_eq {text : Text} {mode : WalletMode} :
    walletModeOf text = some mode ↔ text = modeText mode := by
  constructor
  · intro h
    have := List.find?_some h
    exact (of_decide_eq_true this).symm
  · rintro rfl
    cases mode <;> decide

theorem walletModeOrNone_ok {value : Option Text} {override : Option WalletMode} :
    walletModeOrNone value = .ok override ↔ value = override.map modeText := by
  cases value with
  | none => cases override <;> simp [walletModeOrNone]
  | some text =>
      rw [walletModeOrNone]
      cases hmode : walletModeOf text with
      | none =>
          constructor
          · intro h
            cases h
          · intro h
            obtain ⟨mode, _, hmode'⟩ := Option.map_eq_some_iff.mp h.symm
            rw [walletModeOf_eq.mpr hmode'.symm] at hmode
            cases hmode
      | some mode =>
          obtain rfl := walletModeOf_eq.mp hmode
          constructor
          · intro h
            rw [← Except.ok.inj h]
            rfl
          · intro h
            obtain ⟨mode', rfl, hmode'⟩ := Option.map_eq_some_iff.mp h.symm
            exact congrArg Except.ok (hmode.symm.trans (walletModeOf_eq.mpr hmode'.symm))

section Source

variable {lib : Library} {source : Environ}

theorem intOrNone_ok {value : Option Text} {n : Option Int} : intOrNone lib value = .ok n ↔
    (∀ text ∈ value, lib.int text ≠ none) ∧ n = value.bind lib.int := by
  cases value with
  | none => simp [intOrNone, eq_comm]
  | some text =>
      rw [intOrNone]
      cases hn : lib.int text <;> simp [hn, eq_comm]

theorem bind_ok {ε α β : Type} {x : Except ε α} {f : α → Except ε β} {b : β} :
    (x >>= f) = .ok b ↔ ∃ a, x = .ok a ∧ f a = .ok b := by
  cases x with
  | error e => exact ⟨nofun, fun ⟨_, h, _⟩ => nomatch h⟩
  | ok a => exact ⟨fun h => ⟨a, rfl, h⟩, fun ⟨_, h, hb⟩ => Except.ok.inj h ▸ hb⟩

/-- What is read where the numbers are numbers. -/
def configIn (lib : Library) (runtimeEnv : RuntimeEnv) (source : Environ) (storageDir : Text)
    (override : Option WalletMode) : Config :=
  configOf runtimeEnv source storageDir override ((source.value .chainId).bind lib.int)
    ((source.value .fundingWindowSeconds).bind lib.int)

theorem readConfig_ok {runtimeEnv : RuntimeEnv} {storageDir : Text} {config : Config} :
    readConfig lib runtimeEnv source storageDir = .ok config ↔ ∃ override,
      source.value .walletMode = override.map modeText
      ∧ (∀ v ∈ [Variable.chainId, .fundingWindowSeconds], ∀ text ∈ source.value v,
        lib.int text ≠ none)
      ∧ config = configIn lib runtimeEnv source storageDir override := by
  simp only [readConfig, bind_ok, walletModeOrNone_ok, intOrNone_ok, List.forall_mem_cons]
  constructor
  · rintro ⟨override, hmode, chainId, ⟨hchain, rfl⟩, window, ⟨hwindow, rfl⟩, hconfig⟩
    exact ⟨override, hmode, ⟨hchain, hwindow, nofun⟩, (Except.ok.inj hconfig).symm⟩
  · rintro ⟨override, hmode, ⟨hchain, hwindow, _⟩, rfl⟩
    exact ⟨override, hmode, _, ⟨hchain, rfl⟩, _, ⟨hwindow, rfl⟩, rfl⟩

theorem mem_mandatedInputs {v : Variable} (hv : v ∈ Variable.vaultAddress :: Variable.derivation) :
    v ∈ Variable.mandatedInputs := List.mem_append_left _ hv

theorem reads_configIn (lib : Library) (source : Environ) (runtimeEnv : RuntimeEnv)
    (storageDir : Text) (override : Option WalletMode) :
    Reads (configIn lib runtimeEnv source storageDir override).toConfigFields source.word where
  identity := by
    intro v hv
    rw [← value_eq]
    simp only [Variable.identity, Variable.derivation, List.cons_append, List.nil_append,
      List.mem_cons, List.not_mem_nil, or_false] at hv
    rcases hv with rfl | rfl | rfl | rfl | rfl | rfl | rfl | rfl | rfl | rfl <;> rfl
  inputs := by
    intro hinput v hv
    have hnone := List.any_eq_false.mp hinput v (mem_mandatedInputs hv)
    rw [value_eq, Option.isSome_map] at hnone
    simpa using hnone

theorem fromEnv_ok {environ : Environ} {env : Option Environ} {accepted : Accepted} :
    fromEnv lib environ env = .ok accepted ↔ ∃ runtimeEnv storageDir,
      runtimeEnvOf (sourceOf environ env).runtimeEnv = some runtimeEnv
      ∧ lib.expanduser (sourceOf environ env).storageDir = .ok storageDir
      ∧ readConfig lib runtimeEnv (sourceOf environ env) storageDir = .ok accepted.toConfig := by
  rw [fromEnv]
  cases henv : runtimeEnvOf (sourceOf environ env).runtimeEnv with
  | none => exact ⟨nofun, fun ⟨_, _, h, _⟩ => nomatch h⟩
  | some runtimeEnv =>
      cases hstorage : lib.expanduser (sourceOf environ env).storageDir with
      | error error =>
          refine ⟨fun h => ?_, fun ⟨_, _, _, h, _⟩ => nomatch h⟩
          cases error <;> cases h
      | ok storageDir =>
          simp only [Option.some.injEq, Except.ok.injEq, exists_and_left, exists_eq_left']
          cases hread : readConfig lib runtimeEnv (sourceOf environ env) storageDir with
          | error error => exact ⟨nofun, nofun⟩
          | ok config =>
              simp only [Except.ok.injEq]
              split
              · rename_i message hinvalid
                refine ⟨nofun, ?_⟩
                rintro rfl
                rw [accepted.valid] at hinvalid
                exact nomatch hinvalid
              · rename_i hvalid
                constructor
                · intro h
                  rw [← Except.ok.inj h]
                · rintro rfl
                  rfl

end Source

/-! ## The account of an environment -/

theorem isHex32_default : isHex32 allowedAdaptersRootDefault = true := by decide

theorem isHex32_root (source : Environ) :
    isHex32 ((source.value .allowedAdaptersRoot).getD allowedAdaptersRootDefault) = true
      ↔ ∀ root ∈ source.value .allowedAdaptersRoot, isHex32 root = true := by
  cases source.value .allowedAdaptersRoot with
  | none => simp [isHex32_default]
  | some root => simp

theorem truthy_value (source : Environ) (v : Variable) :
    truthy (source.value v) = true ↔ source.value v ≠ none := by
  rw [value_eq, truthy_text]
  cases source.word v <;> simp

/-- What the configuration says of its inputs. -/
theorem inputs_eq (source : Environ) :
    (Variable.mandatedInputs.any fun v => (source.value v).isSome) = false
      ↔ ∀ v ∈ Variable.mandatedInputs, source.value v = none := by
  simp [List.any_eq_false]

section FromEnv

variable {lib : Library} {environ : Environ} {env : Option Environ}

/-- The words that a described account is set to are those of the environment. -/
theorem Describes.words {source : Environ} {A : Account} (h : Describes lib source A) :
    ∀ v ∈ Variable.identity, source.word v = A.settings v := fun v hv =>
  map_text_inj.mp ((value_eq source v).symm.trans (h.identity v hv))

theorem Describes.inputs {source : Environ} {A : Account} (h : Describes lib source A) :
    A.vault.isSome = Variable.mandatedInputs.any fun v => (source.value v).isSome := by
  cases hvault : A.vault with
  | none => exact ((inputs_eq source).mpr (h.alone hvault)).symm
  | some vault =>
      by_contra hne
      have hnone := (inputs_eq source).mp (Bool.eq_false_iff.mpr (Ne.symm hne))
      have : A.vault = none := by
        refine vault_ext fun v hv => ?_
        rw [← settings_of_vault A hv, ← h.words v (List.mem_cons_of_mem _ (List.mem_cons_of_mem _
          (List.mem_cons_of_mem _ hv)))]
        have := hnone v (mem_mandatedInputs hv)
        rwa [value_eq, Option.map_eq_none_iff] at this
      rw [this] at hvault
      exact nomatch hvault

theorem exists_describes {accepted : Accepted} (h : fromEnv lib environ env = .ok accepted) :
    ∃ A, Describes lib (sourceOf environ env) A ∧ Holds accepted.toConfigFields A := by
  obtain ⟨runtimeEnv, storageDir, henv, hstorage, hread⟩ := fromEnv_ok.mp h
  obtain ⟨override, hmode, hnumbers, hconfig⟩ := readConfig_ok.mp hread
  obtain ⟨config, hvalid⟩ := accepted
  obtain rfl := hconfig
  obtain ⟨hkey, hroot, hok⟩ := (validateRuntimeContract_ok _).mp hvalid
  have hreads := reads_configIn lib (sourceOf environ env) runtimeEnv storageDir override
  obtain ⟨A, hask, hinputs, hs⟩ := (validateMode_iff hreads).mp hok
  refine ⟨A, ⟨⟨runtimeEnv, henv, ?_⟩, ⟨storageDir, hstorage⟩, ?_, (isHex32_root _).mp hroot, hnumbers, ?_, ?_⟩,
    ⟨walletMode_eq hreads hask hs, ?_, hinputs.symm⟩⟩
  · exact fun hmain => (truthy_value _ _).mp (hkey hmain)
  · rw [hmode]
    rcases hask with hask | ⟨hask, hvault⟩
    · obtain rfl : override = some A.mode := hask
      exact Or.inl rfl
    · obtain rfl : override = none := hask
      exact Or.inr ⟨rfl, hvault⟩
  · intro v hv
    rw [value_eq, hs v hv]
  · intro hnone
    refine (inputs_eq _).mp ?_
    rw [hnone] at hinputs
    exact hinputs.symm
  · intro v hv
    rw [hreads.identity v hv, hs v hv]

theorem exists_accepted {A : Account} (h : Describes lib (sourceOf environ env) A) :
    ∃ accepted, fromEnv lib environ env = .ok accepted ∧ Holds accepted.toConfigFields A := by
  obtain ⟨runtimeEnv, henv, hkey⟩ := h.env
  obtain ⟨storageDir, hstorage⟩ := h.storage
  obtain ⟨override, hmode, hoverride⟩ : ∃ override : Option WalletMode,
      (sourceOf environ env).value .walletMode = override.map modeText
      ∧ (override = some A.mode
        ∨ (override = none ∧ A.vault = none ∧ A.mode ≠ .mandatedVault)) := by
    rcases h.mode with hmode | ⟨hmode, hvault⟩
    · exact ⟨some A.mode, hmode, Or.inl rfl⟩
    · exact ⟨none, hmode, Or.inr ⟨rfl, hvault⟩⟩
  have hreads := reads_configIn lib (sourceOf environ env) runtimeEnv storageDir override
  have hask : Asks (configIn lib runtimeEnv (sourceOf environ env) storageDir override).toConfigFields A :=
    hoverride
  have hvalid := (validateRuntimeContract_ok _).mpr
    ⟨fun hmain => (truthy_value _ .apiKey).mpr (hkey hmain), (isHex32_root _).mpr h.root,
      (validateMode_iff hreads).mpr ⟨A, hask, h.inputs, h.words⟩⟩
  refine ⟨⟨_, hvalid⟩, fromEnv_ok.mpr ⟨runtimeEnv, storageDir, henv, hstorage, ?_⟩,
    walletMode_eq hreads hask h.words, ?_, h.inputs.symm⟩
  · exact readConfig_ok.mpr ⟨override, hmode, h.numbers, rfl⟩
  · intro v hv
    rw [hreads.identity v hv, h.words v hv]

end FromEnv

/-- **An environment is accepted exactly if it describes an account**, and what is read from it is
    about that account and no other. -/
theorem fromEnv_describes (lib : Library) (environ : Environ) (env : Option Environ) :
    (∀ A, Describes lib (sourceOf environ env) A
      ↔ ∃ accepted, fromEnv lib environ env = .ok accepted ∧ Holds accepted.toConfigFields A)
    ∧ ∀ accepted, fromEnv lib environ env = .ok accepted →
      ∃! A, Holds accepted.toConfigFields A := by
  refine ⟨fun A => ⟨exists_accepted, ?_⟩, ?_⟩
  · rintro ⟨accepted, hok, hA⟩
    obtain ⟨B, hdescribes, hB⟩ := exists_describes hok
    rwa [hA.unique hB]
  · intro accepted hok
    obtain ⟨A, _, hA⟩ := exists_describes hok
    exact ⟨A, hA, fun B hB => hB.unique hA⟩

/-! ## Accounts that are written down -/

theorem nodup_names : (Variable.all.map Variable.name).Nodup := by decide

/-- A mapping that holds a variable once gives it back. -/
theorem get_filterMap (s : Variable → Option Word) {v : Variable} : ∀ {names : List Variable},
    (names.map Variable.name).Nodup → v ∈ names →
    Environ.get (names.filterMap fun u => (s u).map fun word => (u.name, word.text)) v
      = (s v).map Word.text := by
  intro names
  induction names with
  | nil => intro _ hv; exact nomatch hv
  | cons u names ih =>
      intro hnodup hv
      obtain ⟨hu, hnodup⟩ := List.nodup_cons.mp hnodup
      have hrest : v.name ∉ names.map Variable.name → Environ.get
          (names.filterMap fun u => (s u).map fun word => (u.name, word.text)) v = none := by
        intro hnot
        rw [Environ.get, Json.get, Option.map_eq_none_iff, List.find?_eq_none]
        rintro entry hentry
        obtain ⟨w, hw, hentry⟩ := List.mem_filterMap.mp hentry
        obtain ⟨word, _, rfl⟩ := Option.map_eq_some_iff.mp hentry
        simpa using fun hname : w.name = v.name => hnot (hname ▸ List.mem_map_of_mem hw)
      rcases List.mem_cons.mp hv with rfl | hv
      · cases hs : s v with
        | none => rw [List.filterMap_cons_none (by rw [hs]; rfl), hrest hu]; rfl
        | some word =>
            rw [List.filterMap_cons_some (by rw [hs]; rfl)]
            simp [Environ.get, Json.get]
      · have hne : u.name ≠ v.name := fun hname => hu (hname ▸ List.mem_map_of_mem hv)
        rw [← ih hnodup hv]
        cases hs : s u with
        | none => rw [List.filterMap_cons_none (by rw [hs]; rfl)]
        | some word =>
            rw [List.filterMap_cons_some (by rw [hs]; rfl)]
            simp [Environ.get, Json.get, hne]

variable (A : Account)

theorem get_environ (v : Variable) : A.environ.get v = (A.settings v).map Word.text :=
  get_filterMap A.settings nodup_names v.mem_all

theorem value_environ (v : Variable) : A.environ.value v = (A.settings v).map Word.text := by
  rw [Environ.value, get_environ]
  cases A.settings v with
  | none => rfl
  | some word =>
      show (if strip word.text = [] then none else some (strip word.text)) = some word.text
      rw [word.stripped, if_neg word.ne_nil]

theorem sourceOf_environ (environ : Environ) : sourceOf environ (some A.environ) = A.environ := by
  have hmode := get_environ A .walletMode
  cases hA : A.environ with
  | nil =>
      rw [hA] at hmode
      exact nomatch hmode
  | cons entry entries => rfl

theorem settings_eq_none {v : Variable} (hv : v ∉ Variable.walletMode :: Variable.identity) :
    A.settings v = none := by
  have hnone :
      (A.vault.bind fun vault => vault.derivation.bind fun _ => none) = (none : Option Word) := by
    rw [Option.bind_eq_none_iff]
    exact fun vault _ => Option.bind_fun_none _
  cases v <;> first | exact hnone | exact absurd (by decide) hv

theorem settings_of_no_vault (h : A.vault = none) {v : Variable}
    (hv : v ∈ Variable.mandatedInputs) : A.settings v = none := by
  by_cases hmem : v ∈ Variable.walletMode :: Variable.identity
  · have hvault : v ∈ Variable.vaultAddress :: Variable.derivation := by
      revert hv hmem
      cases v <;> decide
    rw [settings_of_vault A hvault, h]
    rfl
  · exact settings_eq_none A hmem

/-- The default directory is used. -/
theorem storageDir_environ : A.environ.storageDir = "~/.openclaw/predict".toList := by
  rw [Environ.storageDir, get_environ, settings_eq_none A (by decide)]
  rfl

theorem describes_environ (lib : Library) {home : Text}
    (hhome : lib.expanduser "~/.openclaw/predict".toList = .ok home) :
    Describes lib A.environ A where
  env := by
    refine ⟨.testnet, ?_, nofun⟩
    rw [Environ.runtimeEnv, get_environ, settings_eq_none A (by decide)]
    rfl
  storage := ⟨home, by rw [storageDir_environ, hhome]⟩
  mode := Or.inl (value_environ A .walletMode)
  root := by
    intro root hroot
    rw [value_environ, settings_eq_none A (by decide)] at hroot
    exact nomatch hroot
  numbers := by
    intro v hv text htext
    have hnot : v ∉ Variable.walletMode :: Variable.identity := by
      revert hv
      cases v <;> decide
    rw [value_environ, settings_eq_none A hnot] at htext
    exact nomatch htext
  identity := fun v _ => value_environ A v
  alone := by
    intro hnone v hv
    rw [value_environ, settings_of_no_vault A hnone hv]
    rfl

/-- **An account that is written down is read back**: what is read from its environment is about
    it.  So an accepted environment can be replaced by that of its account; whose key signs and
    which vault pays stays as it is. -/
theorem fromEnv_environ (lib : Library) {home : Text}
    (hhome : lib.expanduser "~/.openclaw/predict".toList = .ok home) (environ : Environ) :
    (∀ A : Account, ∃ accepted, fromEnv lib environ (some A.environ) = .ok accepted
      ∧ ∀ B, Holds accepted.toConfigFields B ↔ B = A)
    ∧ ∀ env accepted, fromEnv lib environ env = .ok accepted → ∃ A : Account, ∃ accepted',
      fromEnv lib environ (some A.environ) = .ok accepted'
        ∧ accepted'.walletMode = accepted.walletMode
        ∧ ∀ v ∈ Variable.identity,
          field accepted'.toConfigFields v = field accepted.toConfigFields v := by
  have hback : ∀ A : Account, ∃ accepted, fromEnv lib environ (some A.environ) = .ok accepted
      ∧ Holds accepted.toConfigFields A := by
    intro A
    refine exists_accepted ?_
    rw [sourceOf_environ]
    exact describes_environ A lib hhome
  constructor
  · intro A
    obtain ⟨accepted, hok, hA⟩ := hback A
    refine ⟨accepted, hok, fun B => ⟨fun hB => hB.unique hA, ?_⟩⟩
    rintro rfl
    exact hA
  · intro env accepted hok
    obtain ⟨A, _, hA⟩ := exists_describes hok
    obtain ⟨accepted', hok', hA'⟩ := hback A
    exact ⟨A, accepted', hok', hA'.mode.trans hA.mode.symm,
      fun v hv => (hA'.identity v hv).trans (hA.identity v hv).symm⟩

/-- A library that finds the home of every user. -/
def plainLibrary : Library where
  expanduser := .ok
  int := Texts.int
  str := fun _ => []

theorem fromEnv_environ_nobody : ∃ accepted,
    fromEnv plainLibrary [] (some Account.nobody.environ) = .ok accepted
      ∧ ∀ B, Holds accepted.toConfigFields B ↔ B = .nobody :=
  (fromEnv_environ plainLibrary rfl []).1 .nobody

end Environments

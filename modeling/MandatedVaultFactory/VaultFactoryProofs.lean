import MandatedVaultFactory.VaultStepProofs
import Mathlib.Algebra.BigOperators.Group.Finset.Basic

/-!
# `VaultFactory`

The factory, the clones it deploys with `CREATE2`, and the accounts others deploy beside it.

* **`createVault`**, **`predictVaultAddress`**, **`predictVaultAddressFor`** — the functions
  of the contract.
* **`step`**, **`run`** — a history: vaults created by anyone, whatever happens to the vaults,
  and deployments by others.
* **`Registry`** — how the three registries and the vaults go with the calls that succeeded;
  `Occupied` — where the accounts of a history come from.
* **`registry_and_addresses`** — the registries are in step over every history, a vault is
  initialised once, and its address is the predicted one, which nothing else can occupy. -/

namespace VaultFactory

open Vault CallTree Encoding Keccak

/-! ## Addresses -/

/-- `type(uint64).max`, the version `_disableInitializers` sets. -/
def disabled : BitVec 64 := BitVec.allOnes 64

theorem disabled_ne_zero : disabled ≠ 0 := by decide

/-- The initialisation code of a minimal proxy of `implementation`. -/
def cloneInitCode (implementation : Address) : Bytes :=
  bigEndian 20 0x3d602d80600a3d3981f3363d3d373d3d3d363d73
    ++ bigEndian 20 implementation.toNat
    ++ bigEndian 15 0x5af43d82803e903d91602b57fd5bf3

/-- The integer encoding of RLP for numbers of at most eight bytes. -/
def rlpUint (n : BitVec 64) : Bytes :=
  let digits := (bigEndian 8 n.toNat).dropWhile fun d => d = 0
  if n ≠ 0 ∧ n < 0x80 then digits else UInt8.ofNat (0x80 + digits.length) :: digits

/-- How an account has come to its address. -/
inductive Origin where
  | externallyOwned (publicKey : BitVec 512)
  | create (deployer : Address) (nonce : BitVec 64)
  | create2 (deployer : Address) (salt : Bytes32) (initCode : Bytes)

/-- The string whose digest holds the address. -/
def Origin.preimage : Origin → Bytes
  | .externallyOwned publicKey => bigEndian 64 publicKey.toNat
  | .create deployer nonce =>
      let payload := 0x94 :: bigEndian 20 deployer.toNat ++ rlpUint nonce
      UInt8.ofNat (0xc0 + payload.length) :: payload
  | .create2 deployer salt initCode =>
      0xff :: bigEndian 20 deployer.toNat ++ word salt ++ word (keccak256 initCode)

/-- The last 20 bytes of a digest. -/
def addressOf (preimage : Bytes) : Address := (keccak256 preimage).setWidth 160

def Origin.address (o : Origin) : Address := addressOf o.preimage

/-- Not deployed by `self` with `CREATE2`. -/
def Origin.Foreign (self : Address) : Origin → Prop
  | .create2 deployer _ _ => deployer ≠ self
  | _ => True

instance (self : Address) : (o : Origin) → Decidable (o.Foreign self)
  | .externallyOwned _ => inferInstanceAs (Decidable True)
  | .create _ _ => inferInstanceAs (Decidable True)
  | .create2 deployer _ _ => inferInstanceAs (Decidable (deployer ≠ self))

/-- `Clones.predictDeterministicAddress`. -/
def predictDeterministicAddress (implementation : Address) (salt : Bytes32)
    (deployer : Address) : Address :=
  (Origin.create2 deployer salt (cloneInitCode implementation)).address

/-! ## The contract -/

/-- Who creates a vault, and the arguments of the call. -/
structure Params where
  creator : Address
  asset : Address
  name : Blob
  symbol : Blob
  authority : Address
  salt : Bytes32
  deriving DecidableEq

/-- `abi.encode(creator, asset, name, symbol, authority, salt)`: the two strings behind their
    offsets. -/
def Params.encode (p : Params) : Bytes :=
  word (p.creator.setWidth 256) ++ word (p.asset.setWidth 256) ++ word 0xc0
    ++ word (BitVec.ofNat 256 (0xc0 + (lengthPrefixed p.name).length))
    ++ word (p.authority.setWidth 256) ++ word p.salt
    ++ lengthPrefixed p.name ++ lengthPrefixed p.symbol

/-- `_computeSalt`. -/
def computeSalt (p : Params) : Bytes32 := keccak256 p.encode

structure VaultCreated where
  vault : Address
  creator : Address
  authority : Address
  asset : Address
  name : Bytes
  symbol : Bytes
  deriving DecidableEq

/-- The event of a successful call. -/
def Params.event (p : Params) (vault : Address) : VaultCreated where
  vault := vault
  creator := p.creator
  authority := p.authority
  asset := p.asset
  name := p.name.1
  symbol := p.symbol.1

/-- What is at an address: a `MandatedVaultClone`, or anything else with code or a nonce. -/
inductive Account where
  | vault (w : World)
  | other

/-- The factory, and the accounts that exist. -/
structure Chain where
  self : Address
  implementation : Address
  vaultCount : Uint256
  isVault : Address → Bool
  vaultsByCreator : Address → List Address
  events : List VaultCreated
  accounts : Address → Option Account

/-- The errors a call of the factory ends with. -/
inductive FactoryError where
  | FailedDeployment
  | Initialize (e : Vault.Error)
  | Panic (code : Nat)
  deriving DecidableEq

/-- `createVault`, where the vault's address already has these balances. -/
def createVault (p : Params) (assets native : Uint256) (c : Chain) :
    Except FactoryError (Address × Chain) :=
  let actualSalt := computeSalt p
  -- `Clones.cloneDeterministic`
  let vault := (Origin.create2 c.self actualSalt (cloneInitCode c.implementation)).address
  if (c.accounts vault).isSome then .error .FailedDeployment
  else
    match initializeVault p.asset p.name.1 p.symbol.1 p.authority
        (World.fresh vault assets native) with
    | .error e => .error (.Initialize e)
    | .ok w =>
        if c.vaultCount = BitVec.allOnes 256 then .error (.Panic 0x11)
        else .ok (vault, { c with
          accounts := Function.update c.accounts vault (some (.vault w))
          isVault := Function.update c.isVault vault true
          vaultsByCreator := Function.update c.vaultsByCreator p.creator (c.vaultsByCreator p.creator ++ [vault])
          vaultCount := c.vaultCount + 1
          events := c.events ++ [p.event vault] })

def isVault (c : Chain) (vault : Address) : Bool := c.isVault vault

def getVaultsByCreator (c : Chain) (creator : Address) : List Address := c.vaultsByCreator creator

def vaultCount (c : Chain) : Uint256 := c.vaultCount

/-- `predictVaultAddress` with the creator as an argument. -/
def predictVaultAddressFor (c : Chain) (creator asset : Address) (name symbol : Blob)
    (authority : Address) (salt : Bytes32) : Address :=
  let actualSalt := computeSalt
    { creator := creator, asset := asset, name := name, symbol := symbol,
      authority := authority, salt := salt }
  predictDeterministicAddress c.implementation actualSalt c.self

/-- `predictVaultAddress` for the caller. -/
def predictVaultAddress (c : Chain) (sender asset : Address) (name symbol : Blob)
    (authority : Address) (salt : Bytes32) : Address :=
  let actualSalt := computeSalt
    { creator := sender, asset := asset, name := name, symbol := symbol,
      authority := authority, salt := salt }
  predictDeterministicAddress c.implementation actualSalt c.self

/-! ## Histories -/

/-- How the factory itself was deployed. -/
structure Setup where
  origin : Origin
  foreign : origin.Foreign origin.address

/-- The locked implementation, the factory's first deployment. -/
def Setup.implementation (S : Setup) : Origin := .create S.origin.address 1

/-- The chain after the constructor. -/
def Setup.constructed (S : Setup) : Chain where
  self := S.origin.address
  implementation := S.implementation.address
  vaultCount := 0
  isVault _ := false
  vaultsByCreator _ := []
  events := []
  accounts a :=
    if a = S.implementation.address then
      some (.vault { World.fresh a 0 0 with initialized := disabled })
    else if a = S.origin.address then some .other
    else none

/-- What can happen: a call of `createVault`, a transaction that uses a vault, or the
    appearance of some other account. -/
inductive Op where
  | createVault (p : Params) (assets native : Uint256)
  | use (vault : Address) (script : VaultScript)
  | appear (o : Origin)

/-- One of them.  A call or a transaction that reverts changes nothing. -/
def step (P : Platform) : Op → Chain → Chain
  | .createVault p assets native, c =>
      match createVault p assets native c with
      | .ok (_, c') => c'
      | .error _ => c
  | .use vault script, c =>
      match c.accounts vault with
      | some (.vault w) =>
          match (vaultMachine P).run script w with
          | .ok w' => { c with accounts := Function.update c.accounts vault (some (.vault w')) }
          | .error _ => c
      | _ => c
  | .appear o, c =>
      if o.Foreign c.self ∧ c.accounts o.address = none then
        { c with accounts := Function.update c.accounts o.address (some .other) }
      else c

def run (P : Platform) : List Op → Chain → Chain
  | [], c => c
  | op :: ops, c => run P ops (step P op c)

/-- The successful call of `initialize` made here, if any: its asset and authority. -/
def initializeCall : Point World Invocation → Option (Address × Address)
  | .enter ⟨_, .initializeVault asset name symbol authority⟩ w =>
      match initializeVault asset name symbol authority w with
      | .ok _ => some (asset, authority)
      | .error _ => none
  | _ => none

/-- Those among the points of a run; they count even if they were undone later. -/
def initializeCalls (points : List (Point World Invocation)) : List (Address × Address) :=
  points.filterMap initializeCall

/-- The call of `createVault` that succeeds here, if any, with the vault it returns. -/
def createdBy : Op → Chain → List (Params × Address)
  | .createVault p assets native, c =>
      match createVault p assets native c with
      | .ok (vault, _) => [(p, vault)]
      | .error _ => []
  | _, _ => []

/-- The asset and the authority that the vault at an address holds. -/
def heldBy (c : Chain) (vault : Address) : List (Address × Address) :=
  match c.accounts vault with
  | some (.vault w) => [(w.asset, w.authority)]
  | _ => []

/-- The successful calls of `initialize` on the vault `v` here: what the call that
    `createVault` makes has left in the new vault, and the calls of a transaction. -/
def initializedBy (P : Platform) (v : Address) : Op → Chain → List (Address × Address)
  | .createVault p assets native, c =>
      match createVault p assets native c with
      | .ok (vault, c') => if vault = v then heldBy c' vault else []
      | .error _ => []
  | .use vault script, c =>
      match c.accounts vault with
      | some (.vault w) =>
          if vault = v then initializeCalls ((vaultMachine P).trace script w) else []
      | _ => []
  | .appear _, _ => []

/-- What a history does, put together from what its steps do. -/
def collect {α : Type} (P : Platform) (f : Op → Chain → List α) : List Op → Chain → List α
  | [], _ => []
  | op :: ops, c => f op c ++ collect P f ops (step P op c)

abbrev created (P : Platform) : List Op → Chain → List (Params × Address) :=
  collect P createdBy

abbrev initializations (P : Platform) (v : Address) : List Op → Chain → List (Address × Address) :=
  collect P (initializedBy P v)

/-- **Induction along a history.**  What every step keeps, with what it contributes, holds at
    the end, with what all have contributed. -/
theorem run_collect {α : Type} {P : Platform} {f : Op → Chain → List α}
    {I : Chain → List α → Prop} (ops : List Op)
    (hstep : ∀ op ∈ ops, ∀ c done, I c done → I (step P op c) (done ++ f op c)) :
    ∀ (c : Chain) (done : List α), I c done → I (run P ops c) (done ++ collect P f ops c) := by
  induction ops with
  | nil => intro c done h; simpa [run, collect] using h
  | cons op ops ih =>
      intro c done h
      have hhead := hstep op (List.mem_cons_self ..) c done h
      have htail := ih (fun op' hmem => hstep op' (List.mem_cons_of_mem _ hmem)) _ _ hhead
      rwa [List.append_assoc] at htail

/-! ## One call -/

/-- The origin of the vault that a call deploys. -/
def Params.origin (p : Params) (c : Chain) : Origin :=
  .create2 c.self (computeSalt p) (cloneInitCode c.implementation)

/-- All that a successful `createVault` does. -/
structure Creates (p : Params) (assets native : Uint256) (c : Chain) (vault : Address)
    (c' : Chain) : Prop where
  vault_eq : vault = (p.origin c).address
  vacant : c.accounts vault = none
  room : c.vaultCount ≠ BitVec.allOnes 256
  chain_eq : ∃ w, initializeVault p.asset p.name.1 p.symbol.1 p.authority
      (World.fresh vault assets native) = .ok w
    ∧ c' = { c with
      accounts := Function.update c.accounts vault (some (.vault w))
      isVault := Function.update c.isVault vault true
      vaultsByCreator := Function.update c.vaultsByCreator p.creator (c.vaultsByCreator p.creator ++ [vault])
      vaultCount := c.vaultCount + 1
      events := c.events ++ [p.event vault] }

theorem createVault_ok {p : Params} {assets native : Uint256} {c c' : Chain} {vault : Address}
    (h : createVault p assets native c = .ok (vault, c')) : Creates p assets native c vault c' := by
  simp only [createVault] at h
  split at h
  · cases h
  · rename_i hvacant
    split at h
    · cases h
    · rename_i w hw
      split at h
      · cases h
      · rename_i hroom
        obtain ⟨rfl, rfl⟩ := Prod.mk.inj (Except.ok.inj h)
        exact ⟨rfl, by simpa using hvacant, hroom, w, hw, rfl⟩

/-- What `initialize` has left in the vault that a call creates. -/
theorem Creates.vault_eq_fresh {p : Params} {assets native : Uint256} {c c' : Chain}
    {vault : Address} (h : Creates p assets native c vault c') :
    c'.accounts vault = some (.vault { World.fresh vault assets native with
      initialized := 1, name := p.name.1, symbol := p.symbol.1, asset := p.asset,
      authority := p.authority }) := by
  obtain ⟨w, hw, rfl⟩ := h.chain_eq
  simp only [initializeVault, bind_ok, revertIf_ok, exists_const, pure_ok] at hw
  obtain ⟨_, _, _, rfl⟩ := hw
  exact Function.update_self ..

theorem Creates.heldBy_eq {p : Params} {assets native : Uint256} {c c' : Chain}
    {vault : Address} (h : Creates p assets native c vault c') :
    heldBy c' vault = [(p.asset, p.authority)] := by
  rw [heldBy, h.vault_eq_fresh]

/-- A call that fails leaves the chain as it was. -/
theorem step_of_error {P : Platform} {p : Params} {assets native : Uint256} {c : Chain}
    {e : FactoryError} (h : createVault p assets native c = .error e) :
    step P (.createVault p assets native) c = c
      ∧ createdBy (.createVault p assets native) c = [] := by
  simp only [step, createdBy, h, and_self]

/-- What a step can do, with the vaults that it creates. -/
inductive Effect (P : Platform) (c : Chain) : Op → Chain → List (Params × Address) → Prop where
  | nothing (op : Op) : Effect P c op c []
  | created {p : Params} {assets native : Uint256} {v : Address} {c' : Chain}
      (creates : Creates p assets native c v c') :
      Effect P c (.createVault p assets native) c' [(p, v)]
  | used {v : Address} {script : VaultScript} {w w' : World}
      (there : c.accounts v = some (.vault w)) (runs : (vaultMachine P).run script w = .ok w') :
      Effect P c (.use v script)
        { c with accounts := Function.update c.accounts v (some (.vault w')) } []
  | appeared {o : Origin} (foreign : o.Foreign c.self) (vacant : c.accounts o.address = none) :
      Effect P c (.appear o)
        { c with accounts := Function.update c.accounts o.address (some .other) } []

theorem effect_step (P : Platform) (op : Op) (c : Chain) :
    Effect P c op (step P op c) (createdBy op c) := by
  cases op with
  | createVault p assets native =>
      cases hr : createVault p assets native c with
      | error e =>
          obtain ⟨hstep, hcreated⟩ := step_of_error (P := P) hr
          rw [hstep, hcreated]
          exact .nothing _
      | ok r =>
          simp only [step, createdBy, hr]
          exact .created (createVault_ok hr)
  | use v script =>
      simp only [step, createdBy]
      cases hacc : c.accounts v with
      | none => exact .nothing _
      | some account =>
          cases account with
          | other => exact .nothing _
          | vault w =>
              cases hrun : (vaultMachine P).run script w with
              | error d => simpa only [hrun] using Effect.nothing _
              | ok w' => simpa only [hrun] using Effect.used hacc hrun
  | appear o =>
      simp only [step, createdBy]
      by_cases hc : o.Foreign c.self ∧ c.accounts o.address = none
      · rw [if_pos hc]
        exact .appeared hc.1 hc.2
      · rw [if_neg hc]
        exact .nothing _

/-! ## A vault, once initialised -/

/-- The vault is initialised, for this asset. -/
structure Locked (asset : Address) (w : World) : Prop where
  initialized : w.initialized ≠ 0
  asset_eq : w.asset = asset

theorem Locked.step {asset : Address} {env : Env} {call : Call} {w w' : World}
    (h : Locked asset w) (hstep : Step env call w w') : Locked asset w' := by
  cases hstep with
  | initializeVault _ _ _ _ _ hinit => exact absurd hinit h.initialized
  | _ => exact ⟨h.initialized, h.asset_eq⟩

/-- It stays so. -/
def lockedContract (P : Platform) (asset : Address) : VaultContract P (fun _ _ => True) where
  inv := Locked asset
  rel _ _ := True
  mono _ _ := True
  rel_refl _ := trivial
  rel_trans _ _ := trivial
  mono_refl _ := trivial
  mono_trans _ _ := trivial
  balances _ _ _ h := ⟨⟨h.initialized, h.asset_eq⟩, trivial, trivial⟩
  shares _ _ _ _ _ h := ⟨⟨h.initialized, h.asset_eq⟩, trivial, trivial⟩
  erc20 _ _ _ h := ⟨⟨h.initialized, h.asset_eq⟩, trivial, trivial⟩
  step _ _ _ _ h _ hstep := ⟨h.step hstep, trivial, trivial⟩
  execution env mandate _ _ _ _ w _ h _ _ _ := by
    refine ⟨Locked asset, ?_, trivial, fun _ h => h, fun _ _ _ h _ _ => h,
      fun _ _ h _ => ⟨⟨h.initialized, h.asset_eq⟩, trivial, trivial⟩⟩
    rw [World.begun_eq]
    exact ⟨h.initialized, h.asset_eq⟩

theorem Locked.upheld {asset : Address} {w : World} (h : Locked asset w) (P : Platform)
    (script : VaultScript) : (lockedContract P asset).toContract.Upheld script w :=
  Contract.sound (lockedContract P asset).toContract script w h fun _ _ _ => trivial

/-- No call of `initialize` goes through any more. -/
theorem Locked.initializeVault_error {asset : Address} {w : World} (h : Locked asset w)
    (a : Address) (name symbol : Bytes) (authority : Address) :
    initializeVault a name symbol authority w = .error .InvalidInitialization := by
  rw [initializeVault, revertIf, if_pos h.initialized]
  rfl

theorem Locked.initializeCalls_eq {asset : Address} {w : World} (h : Locked asset w)
    (P : Platform) (script : VaultScript) :
    initializeCalls ((vaultMachine P).trace script w) = [] := by
  refine List.filterMap_eq_nil_iff.mpr fun point hmem => ?_
  have hlocked : Locked asset point.state := ((h.upheld P script).points point hmem).1
  cases point with
  | idle s => rfl
  | enter c s =>
      obtain ⟨env, call⟩ := c
      cases call with
      | initializeVault a name symbol authority =>
          have herror := Locked.initializeVault_error (w := s) hlocked a name symbol authority
          simp only [initializeCall, herror]
      | _ => rfl

/-! ## The registries -/

/-- The registries, after the calls `done`. -/
structure Registry (S : Setup) (c : Chain) (done : List (Params × Address)) : Prop where
  self : c.self = S.origin.address
  implementation : c.implementation = S.implementation.address
  count : c.vaultCount.toNat = done.length
  registered : ∀ v, c.isVault v = true ↔ v ∈ done.map Prod.snd
  byCreator : ∀ a, c.vaultsByCreator a = (done.filter fun x => x.1.creator = a).map Prod.snd
  events : c.events = done.map fun x => x.1.event x.2
  nodup : (done.map Prod.snd).Nodup
  vaults : ∀ x ∈ done, ∃ w, c.accounts x.2 = some (.vault w) ∧ Locked x.1.asset w
  locked : ∀ a w, c.accounts a = some (.vault w) → Locked w.asset w
  address : ∀ x ∈ done, x.2 = (x.1.origin S.constructed).address

theorem registry_constructed (S : Setup) : Registry S S.constructed [] where
  self := rfl
  implementation := rfl
  count := rfl
  registered _ := by simp [Setup.constructed]
  byCreator _ := rfl
  events := rfl
  nodup := List.nodup_nil
  vaults _ hx := nomatch hx
  address _ hx := nomatch hx
  locked a w h := by
    refine ⟨?_, rfl⟩
    simp only [Setup.constructed] at h
    by_cases himpl : a = S.implementation.address
    · rw [if_pos himpl] at h
      obtain rfl := Account.vault.inj (Option.some.inj h)
      exact disabled_ne_zero
    · rw [if_neg himpl] at h
      by_cases hself : a = S.origin.address
      · rw [if_pos hself] at h
        cases h
      · rw [if_neg hself] at h
        cases h

namespace Registry

variable {S : Setup} {c : Chain} {done : List (Params × Address)}

theorem origin_eq (h : Registry S c done) (p : Params) : p.origin c = p.origin S.constructed := by
  rw [Params.origin, Params.origin, h.self, h.implementation]
  rfl

/-- A created vault's address is not vacant. -/
theorem not_mem_of_vacant (h : Registry S c done) {v : Address} (hv : c.accounts v = none) :
    v ∉ done.map Prod.snd := by
  intro hmem
  obtain ⟨x, hx, rfl⟩ := List.mem_map.mp hmem
  obtain ⟨w, hw, _⟩ := h.vaults x hx
  rw [hv] at hw
  cases hw

/-- Another account changes or appears: a vault stays a vault with its asset. -/
theorem update (h : Registry S c done) (a : Address) (account : Account)
    (hvault : ∀ w, account = .vault w → Locked w.asset w)
    (hsame : ∀ asset w, c.accounts a = some (.vault w) → Locked asset w →
      ∃ w', account = .vault w' ∧ Locked asset w') :
    Registry S { c with accounts := Function.update c.accounts a (some account) } done where
  self := h.self
  implementation := h.implementation
  count := h.count
  registered := h.registered
  byCreator := h.byCreator
  events := h.events
  nodup := h.nodup
  address := h.address
  vaults x hx := by
    obtain ⟨w, hw, hlocked⟩ := h.vaults x hx
    by_cases hxa : x.2 = a
    · subst hxa
      obtain ⟨w', rfl, hlocked'⟩ := hsame _ w hw hlocked
      exact ⟨w', Function.update_self .., hlocked'⟩
    · refine ⟨w, ?_, hlocked⟩
      show Function.update c.accounts a (some account) x.2 = _
      rw [Function.update_of_ne hxa, hw]
  locked b w hw := by
    by_cases hba : b = a
    · subst hba
      have hw' : some account = some (.vault w) :=
        (Function.update_self b (some account) c.accounts).symm.trans hw
      exact hvault w (Option.some.inj hw')
    · exact h.locked b w ((Function.update_of_ne hba ..).symm.trans hw)

/-- A vault is created. -/
theorem creates (h : Registry S c done) {p : Params} {assets native : Uint256} {v : Address}
    {c' : Chain} (hc : Creates p assets native c v c') : Registry S c' (done ++ [(p, v)]) := by
  have hfresh := hc.vault_eq_fresh
  obtain ⟨hv, hvacant, hroom, w, _, rfl⟩ := hc
  have hlocked : Locked p.asset w := by
    have hw := (Function.update_self v (some (Account.vault w)) c.accounts).symm.trans hfresh
    obtain rfl := Account.vault.inj (Option.some.inj hw)
    exact ⟨fun h0 : (1 : BitVec 64) = 0 => absurd h0 (by decide), rfl⟩
  have hnew := h.not_mem_of_vacant hvacant
  have hupdate := h.update v (.vault w)
    (fun _ heq => Account.vault.inj heq ▸ hlocked.asset_eq ▸ hlocked)
    (fun _ _ hocc => by rw [hvacant] at hocc; cases hocc)
  refine ⟨h.self, h.implementation, ?_, ?_, ?_, ?_, ?_, ?_, hupdate.locked, ?_⟩
  · -- the checked increment: there is room, so the counter does not wrap
    have hlt : c.vaultCount.toNat + 1 < 2 ^ 256 := by
      have hne : c.vaultCount.toNat ≠ 2 ^ 256 - 1 := fun heq => hroom (BitVec.eq_of_toNat_eq
        (heq.trans (BitVec.toNat_allOnes).symm))
      have := c.vaultCount.isLt
      omega
    show (c.vaultCount + 1).toNat = _
    rw [BitVec.toNat_add, List.length_append, ← h.count]
    exact Nat.mod_eq_of_lt hlt
  · intro a
    show Function.update c.isVault v true a = true ↔ _
    rw [List.map_append, List.mem_append, ← h.registered]
    by_cases ha : a = v
    · subst ha
      simp
    · rw [Function.update_of_ne ha]
      simp [ha]
  · intro a
    show Function.update c.vaultsByCreator p.creator _ a = _
    rw [List.filter_append, List.map_append, ← h.byCreator]
    by_cases ha : a = p.creator
    · subst ha
      simp
    · rw [Function.update_of_ne ha]
      simp [Ne.symm ha]
  · show c.events ++ [p.event v] = _
    rw [h.events, List.map_append]
    rfl
  · rw [List.map_append]
    exact List.nodup_append'.mpr ⟨h.nodup, List.nodup_singleton v,
      fun a ha hav => hnew (by rwa [List.mem_singleton.mp hav] at ha)⟩
  · intro x hx
    rcases List.mem_append.mp hx with hx | hx
    · exact hupdate.vaults x hx
    · obtain rfl := List.mem_singleton.mp hx
      exact ⟨w, Function.update_self .., hlocked⟩
  · intro x hx
    rcases List.mem_append.mp hx with hx | hx
    · exact h.address x hx
    · obtain rfl := List.mem_singleton.mp hx
      rw [hv, h.origin_eq]

theorem effect (h : Registry S c done) {P : Platform} {op : Op} {c' : Chain}
    {new : List (Params × Address)} (heffect : Effect P c op c' new) :
    Registry S c' (done ++ new) := by
  cases heffect with
  | nothing => rwa [List.append_nil]
  | created creates => exact h.creates creates
  | used there runs =>
      rename_i v script w w'
      have hupheld : ∀ asset, Locked asset w → Locked asset w' := fun asset hl =>
        ((hl.upheld P script).result w' runs).1
      rw [List.append_nil]
      refine h.update v (.vault w') (fun w₁ heq => ?_) (fun asset w₁ hocc hl => ?_)
      · obtain rfl := Account.vault.inj heq
        exact ⟨(hupheld _ (h.locked v w there)).initialized, rfl⟩
      · obtain rfl := Account.vault.inj (Option.some.inj (there.symm.trans hocc))
        exact ⟨w', rfl, hupheld asset hl⟩
  | appeared foreign vacant =>
      rw [List.append_nil]
      refine h.update _ .other (fun _ heq => nomatch heq) (fun _ _ hocc => ?_)
      rw [vacant] at hocc
      cases hocc

/-- **Every step keeps the registries in step.** -/
theorem step (h : Registry S c done) (P : Platform) (op : Op) :
    Registry S (step P op c) (done ++ createdBy op c) :=
  h.effect (effect_step P op c)

/-- The only calls of `initialize` that go through are those of `createVault`. -/
theorem initializedBy_eq (h : Registry S c done) (P : Platform) (v : Address) (op : Op) :
    initializedBy P v op c
      = ((createdBy op c).filter fun x => x.2 = v).map fun x => (x.1.asset, x.1.authority) := by
  cases op with
  | createVault p assets native =>
      cases hr : createVault p assets native c with
      | error e => simp only [initializedBy, createdBy, hr, List.filter_nil, List.map_nil]
      | ok r =>
          have hheld := (createVault_ok hr).heldBy_eq
          simp only [initializedBy, createdBy, hr]
          by_cases hv : r.1 = v
          · rw [← hv, if_pos rfl, hheld]
            simp
          · simp [hv]
  | use vault script =>
      have hnone : createdBy (.use vault script) c = [] := rfl
      rw [hnone, List.filter_nil, List.map_nil]
      cases hacc : c.accounts vault with
      | none => simp only [initializedBy, hacc]
      | some account =>
          cases account with
          | other => simp only [initializedBy, hacc]
          | vault w =>
              simp only [initializedBy, hacc, (h.locked vault w hacc).initializeCalls_eq, ite_self]
  | appear o => rfl

end Registry

/-- The registries are in step after any history. -/
theorem registry_run (P : Platform) (S : Setup) (ops : List Op) :
    Registry S (run P ops S.constructed) (created P ops S.constructed) := by
  have h := run_collect (P := P) (f := createdBy) (I := Registry S) ops
    (fun op _ c done h => h.step P op) S.constructed [] (registry_constructed S)
  rwa [List.nil_append] at h

/-- Over a history too.  Induction on it. -/
theorem initializations_eq (P : Platform) {S : Setup} (v : Address) :
    ∀ (ops : List Op) (c : Chain) (done : List (Params × Address)), Registry S c done →
      initializations P v ops c
        = ((created P ops c).filter fun x => x.2 = v).map fun x => (x.1.asset, x.1.authority) := by
  intro ops
  induction ops with
  | nil => intro c done _; rfl
  | cons op ops ih =>
      intro c done h
      show initializedBy P v op c ++ initializations P v ops (step P op c) = _
      rw [h.initializedBy_eq P v op, ih _ _ (h.step P op), ← List.map_append, ← List.filter_append]
      rfl

/-! ## What the strings determine -/

theorem Params.encode_injective : Function.Injective Params.encode := by
  intro p p' h
  simp only [Params.encode, List.append_assoc] at h
  obtain ⟨hcreator, h⟩ := prefixFree_word _ _ _ _ h
  obtain ⟨hasset, h⟩ := prefixFree_word _ _ _ _ h
  obtain ⟨_, h⟩ := prefixFree_word _ _ _ _ h
  obtain ⟨_, h⟩ := prefixFree_word _ _ _ _ h
  obtain ⟨hauthority, h⟩ := prefixFree_word _ _ _ _ h
  obtain ⟨hsalt, h⟩ := prefixFree_word _ _ _ _ h
  obtain ⟨hname, h⟩ := prefixFree_lengthPrefixed _ _ _ _ h
  obtain ⟨hsymbol, _⟩ := prefixFree_lengthPrefixed p.symbol p'.symbol [] [] (by rw [h])
  have hwide : 160 ≤ 256 := by omega
  cases p
  cases p'
  obtain rfl := setWidth_inj hwide hcreator
  obtain rfl := setWidth_inj hwide hasset
  obtain rfl := setWidth_inj hwide hauthority
  obtain rfl : _ = _ := hsalt
  obtain rfl : _ = _ := hname
  obtain rfl : _ = _ := hsymbol
  rfl

theorem length_rlpUint_le (n : BitVec 64) : (rlpUint n).length ≤ 9 := by
  have hdigits : ((bigEndian 8 n.toNat).dropWhile fun d => d = 0).length ≤ 8 :=
    (List.dropWhile_sublist _).length_le.trans_eq (length_bigEndian 8 n.toNat)
  rw [rlpUint]
  by_cases hn : n ≠ 0 ∧ n < 0x80
  · rw [if_pos hn]
    omega
  · rw [if_neg hn, List.length_cons]
    omega

theorem preimage_create2 (deployer : Address) (salt : Bytes32) (initCode : Bytes) :
    (Origin.create2 deployer salt initCode).preimage
      = 0xff :: (bigEndian 20 deployer.toNat ++ (word salt ++ word (keccak256 initCode))) := by
  simp only [Origin.preimage, List.cons_append, List.append_assoc]

/-- The string of a `CREATE2` by `self` is no other account's. -/
theorem preimage_ne_of_foreign {self : Address} {salt : Bytes32} {initCode : Bytes} {o : Origin}
    (ho : o.Foreign self) : o.preimage ≠ (Origin.create2 self salt initCode).preimage := by
  intro h
  cases o with
  | externallyOwned publicKey =>
      have hlen := congrArg List.length h
      simp [Origin.preimage] at hlen
  | create deployer nonce =>
      -- the list prefix of a deployer and a nonce is below `0xff`
      obtain ⟨hlead, _⟩ := List.cons.inj h
      have hnonce := length_rlpUint_le nonce
      have hbyte := congrArg UInt8.toNat hlead
      simp only [UInt8.toNat_ofNat', List.length_append, List.length_cons, length_bigEndian] at hbyte
      rw [Nat.mod_eq_of_lt (by omega)] at hbyte
      have hff : (255 : UInt8).toNat = 255 := rfl
      omega
  | create2 deployer salt' initCode' =>
      rw [preimage_create2, preimage_create2] at h
      obtain ⟨_, hrest⟩ := List.cons.inj h
      obtain ⟨hdeployer, _⟩ := List.append_inj hrest (by simp)
      exact ho (BitVec.eq_of_toNat_eq (bigEndian_inj (n := 20)
        (Nat.lt_of_lt_of_eq deployer.isLt (by decide)) (Nat.lt_of_lt_of_eq self.isLt (by decide))
        hdeployer))

/-- The string of a clone holds its salt. -/
theorem salt_eq_of_preimage_eq {self : Address} {salt salt' : Bytes32} {initCode : Bytes}
    (h : (Origin.create2 self salt initCode).preimage
      = (Origin.create2 self salt' initCode).preimage) : salt = salt' := by
  rw [preimage_create2, preimage_create2] at h
  obtain ⟨_, hrest⟩ := List.cons.inj h
  obtain ⟨_, hrest⟩ := List.append_inj hrest rfl
  exact (prefixFree_word _ _ _ _ hrest).1

/-! ## Who can be at an address -/

/-- The accounts of a history that the factory does not create in `createVault`. -/
def others (S : Setup) (ops : List Op) : List Origin :=
  S.origin :: S.implementation :: ops.filterMap fun op =>
    match op with
    | .appear o => if o.Foreign S.origin.address then some o else none
    | _ => none

/-- The arguments of the calls of `createVault` in a history. -/
def called (ops : List Op) : List Params :=
  ops.filterMap fun op =>
    match op with
    | .createVault p _ _ => some p
    | _ => none

theorem foreign_of_mem_others {S : Setup} {ops : List Op} {o : Origin} (h : o ∈ others S ops) :
    o.Foreign S.origin.address := by
  rcases List.mem_cons.mp h with rfl | h
  · exact S.foreign
  rcases List.mem_cons.mp h with rfl | h
  · exact trivial
  obtain ⟨op, _, hop⟩ := List.mem_filterMap.mp h
  cases op with
  | createVault p assets native => cases hop
  | use v script => cases hop
  | appear o' =>
      by_cases hf : o'.Foreign S.origin.address
      · obtain rfl : o' = o := by simpa [hf] using hop
        exact hf
      · simp [hf] at hop

theorem mem_others_of_appear {S : Setup} {ops : List Op} {o : Origin} (h : .appear o ∈ ops)
    (hf : o.Foreign S.origin.address) : o ∈ others S ops :=
  List.mem_cons_of_mem _ (List.mem_cons_of_mem _
    (List.mem_filterMap.mpr ⟨_, h, by simp [hf]⟩))

/-- Every account is one of the others, or a vault that was created. -/
def Occupied (S : Setup) (ops : List Op) (c : Chain) (done : List (Params × Address)) : Prop :=
  ∀ a, c.accounts a ≠ none → (∃ o ∈ others S ops, a = o.address)
    ∨ ∃ x ∈ done, x.1 ∈ called ops ∧ a = x.2

theorem occupied_constructed (S : Setup) (ops : List Op) : Occupied S ops S.constructed [] := by
  intro a ha
  refine Or.inl ?_
  simp only [Setup.constructed] at ha
  by_cases himpl : a = S.implementation.address
  · exact ⟨S.implementation, List.mem_cons_of_mem _ (List.mem_cons_self ..), himpl⟩
  · by_cases hself : a = S.origin.address
    · exact ⟨S.origin, List.mem_cons_self .., hself⟩
    · rw [if_neg himpl, if_neg hself] at ha
      exact absurd rfl ha

/-- One account more, or one changed. -/
theorem Occupied.update {S : Setup} {ops : List Op} {c : Chain} {done : List (Params × Address)}
    (h : Occupied S ops c done) (more : List (Params × Address)) (b : Address)
    (account : Account)
    (hb : c.accounts b ≠ none ∨ (∃ o ∈ others S ops, b = o.address)
      ∨ ∃ x ∈ done ++ more, x.1 ∈ called ops ∧ b = x.2) (a : Address)
    (ha : Function.update c.accounts b (some account) a ≠ none) :
    (∃ o ∈ others S ops, a = o.address) ∨ ∃ x ∈ done ++ more, x.1 ∈ called ops ∧ a = x.2 := by
  have hold : ∀ a', c.accounts a' ≠ none → (∃ o ∈ others S ops, a' = o.address)
      ∨ ∃ x ∈ done ++ more, x.1 ∈ called ops ∧ a' = x.2 := fun a' ha' =>
    (h a' ha').imp id fun ⟨x, hx, hrest⟩ => ⟨x, List.mem_append_left _ hx, hrest⟩
  by_cases hab : a = b
  · subst hab
    exact hb.elim (hold a) id
  · rw [Function.update_of_ne hab] at ha
    exact hold a ha

theorem Occupied.effect {S : Setup} {ops : List Op} {c c' : Chain}
    {done new : List (Params × Address)} (hreg : Registry S c done) (h : Occupied S ops c done)
    {P : Platform} {op : Op} (hop : op ∈ ops) (heffect : Effect P c op c' new) :
    Occupied S ops c' (done ++ new) := by
  cases heffect with
  | nothing => rwa [List.append_nil]
  | created creates =>
      rename_i p assets native v
      obtain ⟨_, _, _, w, _, rfl⟩ := creates
      have hcalled : p ∈ called ops := List.mem_filterMap.mpr ⟨_, hop, rfl⟩
      exact h.update [(p, v)] v (.vault w) (Or.inr (Or.inr
        ⟨(p, v), List.mem_append_right _ (List.mem_singleton_self _), hcalled, rfl⟩))
  | used there runs =>
      refine h.update [] _ _ (Or.inl ?_)
      rw [there]
      exact Option.some_ne_none _
  | appeared foreign vacant =>
      have hmem := mem_others_of_appear hop (hreg.self ▸ foreign)
      exact h.update [] _ .other (Or.inr (Or.inl ⟨_, hmem, rfl⟩))

theorem Occupied.step {S : Setup} {ops : List Op} {c : Chain} {done : List (Params × Address)}
    (hreg : Registry S c done) (h : Occupied S ops c done) (P : Platform) {op : Op}
    (hop : op ∈ ops) : Occupied S ops (step P op c) (done ++ createdBy op c) :=
  h.effect hreg hop (effect_step P op c)

/-- After any history too. -/
theorem occupied_run (P : Platform) (S : Setup) (ops : List Op) :
    Occupied S ops (run P ops S.constructed) (created P ops S.constructed) := by
  have h := run_collect (P := P) (f := createdBy)
    (I := fun c done => Registry S c done ∧ Occupied S ops c done) ops
    (fun op hop c done h => ⟨h.1.step P op, h.2.step h.1 P hop⟩) S.constructed []
    ⟨registry_constructed S, occupied_constructed S ops⟩
  rw [List.nil_append] at h
  exact h.2

/-- The strings hashed into salts, by the calls of a history and by queries. -/
def saltStrings (ops : List Op) (queried : List Params) : Set Bytes :=
  {s | ∃ p ∈ called ops ++ queried, s = p.encode}

/-- The strings hashed into addresses, by all accounts of a history and by queries. -/
def addressStrings (S : Setup) (ops : List Op) (queried : List Params) : Set Bytes :=
  {s | (∃ o ∈ others S ops, s = o.preimage)
    ∨ ∃ p ∈ called ops ++ queried, s = (p.origin S.constructed).preimage}

section Separated

variable {S : Setup} {ops : List Op} {queried : List Params}
  (hsalts : CollisionFree keccak256 (saltStrings ops queried))
  (haddresses : CollisionFree addressOf (addressStrings S ops queried))

include haddresses in
/-- A vault's address is no other account's. -/
theorem address_ne_of_others {p : Params} (hp : p ∈ called ops ++ queried) {o : Origin}
    (ho : o ∈ others S ops) : (p.origin S.constructed).address ≠ o.address := by
  intro heq
  exact preimage_ne_of_foreign (foreign_of_mem_others ho)
    (haddresses (Or.inr ⟨p, hp, rfl⟩) (Or.inl ⟨o, ho, rfl⟩) heq).symm

include hsalts haddresses in
/-- And no other arguments'. -/
theorem eq_of_address_eq {p p' : Params} (hp : p ∈ called ops ++ queried)
    (hp' : p' ∈ called ops ++ queried)
    (heq : (p.origin S.constructed).address = (p'.origin S.constructed).address) : p = p' := by
  have hpreimage := haddresses (Or.inr ⟨p, hp, rfl⟩) (Or.inr ⟨p', hp', rfl⟩) heq
  have hsalt : computeSalt p = computeSalt p' := salt_eq_of_preimage_eq hpreimage
  exact Params.encode_injective (hsalts ⟨p, hp, rfl⟩ ⟨p', hp', rfl⟩ hsalt)

include hsalts haddresses in
/-- **Nobody else gets there.**  An account at the address predicted for some arguments was
    created by the call with these arguments. -/
theorem created_of_occupied (P : Platform) {p : Params} (hp : p ∈ called ops ++ queried)
    (hocc : (run P ops S.constructed).accounts (p.origin S.constructed).address ≠ none) :
    p ∈ (created P ops S.constructed).map Prod.fst := by
  rcases occupied_run P S ops _ hocc with ⟨o, ho, heq⟩ | ⟨x, hx, hcalled, heq⟩
  · exact absurd heq (address_ne_of_others haddresses hp ho)
  · have haddress := (registry_run P S ops).address x hx
    have hsame := eq_of_address_eq hsalts haddresses hp (List.mem_append_left _ hcalled)
      (heq.trans haddress)
    exact List.mem_map.mpr ⟨x, hx, hsame.symm⟩

end Separated

/-! ## The whole history -/

namespace Registry

variable {S : Setup} {c : Chain} {done : List (Params × Address)}

/-- Both functions predict the address at which the call deploys. -/
theorem predictVaultAddressFor_eq (h : Registry S c done) (p : Params) :
    predictVaultAddressFor c p.creator p.asset p.name p.symbol p.authority p.salt
      = (p.origin S.constructed).address := by
  rw [← h.origin_eq]
  rfl

theorem mem_getVaultsByCreator (h : Registry S c done) (v a : Address) :
    v ∈ getVaultsByCreator c a ↔ ∃ x ∈ done, x.1.creator = a ∧ x.2 = v := by
  show v ∈ c.vaultsByCreator a ↔ _
  rw [h.byCreator]
  simp only [List.mem_map, List.mem_filter, decide_eq_true_eq]
  exact ⟨fun ⟨x, ⟨hx, ha⟩, hv⟩ => ⟨x, hx, ha, hv⟩, fun ⟨x, hx, ha, hv⟩ => ⟨x, ⟨hx, ha⟩, hv⟩⟩

/-- A vault belongs to one creator only. -/
theorem eq_of_snd_eq (h : Registry S c done) {x y : Params × Address} (hx : x ∈ done)
    (hy : y ∈ done) (heq : x.2 = y.2) : x = y :=
  List.inj_on_of_nodup_map h.nodup hx hy heq

theorem isVault_iff (h : Registry S c done) (v : Address) :
    isVault c v = true ↔ ∃! a, v ∈ getVaultsByCreator c a := by
  rw [isVault, h.registered, List.mem_map]
  constructor
  · rintro ⟨x, hx, rfl⟩
    refine ⟨x.1.creator, (h.mem_getVaultsByCreator ..).mpr ⟨x, hx, rfl, rfl⟩, ?_⟩
    intro a ha
    obtain ⟨y, hy, rfl, heq⟩ := (h.mem_getVaultsByCreator ..).mp ha
    rw [h.eq_of_snd_eq hy hx heq]
  · rintro ⟨a, ha, _⟩
    obtain ⟨x, hx, _, hv⟩ := (h.mem_getVaultsByCreator ..).mp ha
    exact ⟨x, hx, hv⟩

theorem nodup_getVaultsByCreator (h : Registry S c done) (a : Address) :
    (getVaultsByCreator c a).Nodup := by
  show (c.vaultsByCreator a).Nodup
  rw [h.byCreator]
  exact h.nodup.sublist (List.filter_sublist.map Prod.snd)

/-- The lists of all creators together. -/
theorem vaultCount_eq (h : Registry S c done) (creators : Finset Address)
    (hall : ∀ a, getVaultsByCreator c a ≠ [] → a ∈ creators) :
    (vaultCount c).toNat = ∑ a ∈ creators, (getVaultsByCreator c a).length := by
  let keys : Multiset Address := (done.map fun x => x.1.creator : List Address)
  have hkeys : ∀ a ∈ keys, a ∈ creators := by
    intro a ha
    obtain ⟨x, hx, rfl⟩ := List.mem_map.mp (Multiset.mem_coe.mp ha)
    refine hall _ fun hnil => ?_
    have hmem := (h.mem_getVaultsByCreator x.2 x.1.creator).mpr ⟨x, hx, rfl, rfl⟩
    rw [hnil] at hmem
    exact nomatch hmem
  have hlength : ∀ a, (getVaultsByCreator c a).length = keys.count a := by
    intro a
    show (c.vaultsByCreator a).length = _
    rw [h.byCreator, List.length_map, Multiset.coe_count, List.count, List.countP_map,
      List.countP_eq_length_filter]
    rfl
  have hsum := Multiset.sum_count_eq_card hkeys
  rw [vaultCount, h.count]
  simp only [hlength, hsum]
  exact (List.length_map _).symm

/-- No arguments are used twice: the second time the address is taken. -/
theorem nodup_params (h : Registry S c done) : (done.map Prod.fst).Nodup := by
  have haddress : done.map Prod.snd
      = (done.map Prod.fst).map fun p => (p.origin S.constructed).address := by
    rw [List.map_map]
    exact List.map_congr_left h.address
  exact .of_map _ (haddress ▸ h.nodup)

end Registry

/-- One vault is among the created ones once. -/
theorem filter_eq_singleton {done : List (Params × Address)} (h : (done.map Prod.snd).Nodup)
    {x : Params × Address} (hx : x ∈ done) : (done.filter fun y => y.2 = x.2) = [x] := by
  have hnodup : done.Nodup := .of_map _ h
  have hfilter : (done.filter fun y => y.2 = x.2) = done.filter fun y => y = x := by
    refine List.filter_congr fun y hy => ?_
    exact decide_eq_decide.mpr ⟨fun heq => List.inj_on_of_nodup_map h hy hx heq, fun heq => heq ▸ rfl⟩
  rw [hfilter, List.filter_eq, List.count_eq_one_of_mem hnodup hx]
  rfl

/-- **Registries and addresses.**  After any history of the factory:

    * an address is a vault exactly if it occurs in the list of exactly one creator; each list
      has the vaults of its creator's successful calls, in order and each once; the count is
      the length of all lists together;
    * a call that reverts changes nothing;
    * a call that succeeds leaves a vault with its asset and its authority; in the whole
      history each vault was initialised once, with these two, and from then on `initialize`
      fails, in whatever script;
    * in any state of any history both predictions give the address at which the call deploys,
      and no two successful calls have the same arguments;
    * as far as the strings hashed do not collide, an account at the address predicted for some
      arguments was created by the call with these arguments. -/
theorem registry_and_addresses (P : Platform) (S : Setup) (ops : List Op) :
    let c := run P ops S.constructed
    let done := created P ops S.constructed
    ((∀ v, isVault c v = true ↔ ∃! a, v ∈ getVaultsByCreator c a)
      ∧ (∀ a, (getVaultsByCreator c a).Nodup
        ∧ getVaultsByCreator c a = (done.filter fun x => x.1.creator = a).map Prod.snd)
      ∧ ∀ creators : Finset Address, (∀ a, getVaultsByCreator c a ≠ [] → a ∈ creators) →
        (vaultCount c).toNat = ∑ a ∈ creators, (getVaultsByCreator c a).length)
    ∧ (∀ p assets native e, createVault p assets native c = .error e →
      step P (.createVault p assets native) c = c)
    ∧ (∀ p assets native v c', createVault p assets native c = .ok (v, c') →
      ∃ w, c'.accounts v = some (.vault w) ∧ w.initialized = 1 ∧ w.asset = p.asset
        ∧ w.authority = p.authority ∧ w.pendingAuthority = 0)
    ∧ (∀ x ∈ done, initializations P x.2 ops S.constructed = [(x.1.asset, x.1.authority)]
      ∧ ∃ w, c.accounts x.2 = some (.vault w) ∧ w.asset = x.1.asset
        ∧ (∀ asset name symbol authority,
          initializeVault asset name symbol authority w = .error .InvalidInitialization)
        ∧ ∀ script, initializeCalls ((vaultMachine P).trace script w) = [])
    ∧ (∀ p assets native v c', createVault p assets native c = .ok (v, c') → ∀ ops',
      predictVaultAddress (run P ops' S.constructed) p.creator p.asset p.name p.symbol p.authority
        p.salt = v
      ∧ predictVaultAddressFor (run P ops' S.constructed) p.creator p.asset p.name p.symbol
        p.authority p.salt = v)
    ∧ (done.map Prod.fst).Nodup
    ∧ ∀ queried, CollisionFree keccak256 (saltStrings ops queried) →
      CollisionFree addressOf (addressStrings S ops queried) →
      ∀ p ∈ queried, c.accounts (predictVaultAddressFor c p.creator p.asset p.name p.symbol
        p.authority p.salt) ≠ none → p ∈ done.map Prod.fst := by
  intro c done
  have h : Registry S c done := registry_run P S ops
  refine ⟨⟨h.isVault_iff, fun a => ⟨h.nodup_getVaultsByCreator a, h.byCreator a⟩,
    h.vaultCount_eq⟩, fun p assets native e he => (step_of_error he).1,
    fun p assets native v c' hok => ⟨_, (createVault_ok hok).vault_eq_fresh, rfl, rfl, rfl, rfl⟩,
    fun x hx => ⟨?_, ?_⟩,
    fun p assets native v c' hok ops' => ?_, h.nodup_params, ?_⟩
  · rw [initializations_eq P x.2 ops _ _ (registry_constructed S), filter_eq_singleton h.nodup hx]
    rfl
  · obtain ⟨w, hw, hlocked⟩ := h.vaults x hx
    exact ⟨w, hw, hlocked.asset_eq, hlocked.initializeVault_error, hlocked.initializeCalls_eq P⟩
  · have hv : v = (p.origin S.constructed).address := by
      rw [(createVault_ok hok).vault_eq, h.origin_eq]
    have hpredict := (registry_run P S ops').predictVaultAddressFor_eq p
    exact ⟨hpredict.trans hv.symm, hpredict.trans hv.symm⟩
  · intro queried hsalts haddresses p hp hocc
    rw [h.predictVaultAddressFor_eq] at hocc
    exact created_of_occupied hsalts haddresses P (List.mem_append_right _ hp) hocc

namespace Small

open Vault.Small

/-- The first deployment of some account. -/
def setup : Setup where
  origin := .create 0xD0 0
  foreign := trivial

def name : Blob := ⟨utf8 "Vault", by decide⟩

/-- A vault for the asset. -/
def params (creator : Address) : Params where
  creator := creator
  asset := asset
  name := name
  symbol := name
  authority := authority
  salt := 0

/-- Two creators with the same arguments; the first one tries again. -/
def history : List Op :=
  [.createVault (params 0xC0) 0 0, .appear (.create 0xC1 3), .createVault (params 0xC1) 5 0,
    .createVault (params 0xC0) 0 0]

end Small

/-- The two creators have a vault each, at the predicted address. -/
theorem registry_and_addresses_small :
    let c := run .plain Small.history Small.setup.constructed
    vaultCount c = 2
      ∧ (∃! a, predictVaultAddress c 0xC0 Vault.Small.asset Small.name Small.name
        Vault.Small.authority 0 ∈ getVaultsByCreator c a)
      ∧ Small.params 0xC1 ∈ (created .plain Small.history Small.setup.constructed).map Prod.fst := by
  intro c
  obtain ⟨⟨hvault, _⟩, _, _, _, _, _, hoccupied⟩ :=
    registry_and_addresses .plain Small.setup Small.history
  refine ⟨by decide +kernel, (hvault _).mp (by decide +kernel), ?_⟩
  have hsalts : (((called Small.history ++ [Small.params 0xC1]).dedup.map Params.encode).map
      keccak256).Nodup := by decide +kernel
  have haddresses : (((others Small.setup Small.history).map Origin.preimage
      ++ (called Small.history ++ [Small.params 0xC1]).dedup.map fun p =>
        (p.origin Small.setup.constructed).preimage).map addressOf).Nodup := by decide +kernel
  refine hoccupied [Small.params 0xC1] (.of_nodup hsalts ?_) (.of_nodup haddresses ?_) _
    (List.mem_singleton_self _) ?_
  · intro s hs
    obtain ⟨p, hp, heq⟩ := hs
    exact List.mem_map.mpr ⟨p, List.mem_dedup.mpr hp, heq.symm⟩
  · intro s hs
    rcases hs with ⟨o, ho, heq⟩ | ⟨p, hp, heq⟩
    · exact List.mem_append_left _ (List.mem_map.mpr ⟨o, ho, heq.symm⟩)
    · exact List.mem_append_right _ (List.mem_map.mpr ⟨p, List.mem_dedup.mpr hp, heq.symm⟩)
  · have hsome : (c.accounts (predictVaultAddressFor c 0xC1 Vault.Small.asset Small.name Small.name
        Vault.Small.authority 0)).isSome = true := by decide +kernel
    exact Option.isSome_iff_ne_none.mp hsome

end VaultFactory

import MandatedVaultFactory.VaultFactoryProofs
import MandatedVaultFactory.VaultResolutionProofs

/-!
# The vault that is shown

In mandated-vault mode a deposit goes to an address that may be vacant still.  Which vault comes to
be there is decided by the factory, and the chain goes on while the address is shown.

* **`Answers`** — a bridge that reads the chain at some moment of a history.
* **`details_of_derived`** — what is shown where the vault is derived.
* **`occupied_iff`** — an address that is predicted is taken by one call only.
* **`shown_vault`** — the address that is shown is, in every continuation of the history, the
  address of the vault that is meant, or vacant. -/

namespace ShownVaults

open Vault Encoding Keccak VaultFactory VaultResolution Predict
open Texts (Text)

/-! ## What is shown -/

/-- The address that the factory predicts for a call. -/
def predicted (chain : Chain) (p : Params) : Address :=
  predictVaultAddressFor chain p.creator p.asset p.name p.symbol p.authority p.salt

/-- The bridge answers from the chain.  `meant` is the call that a derivation stands for, and
    `text` writes an address. -/
structure Answers (text : Address → Text) (meant : Derivation → Option Params) (chain : Chain)
    (bridge : Bridge) : Prop where
  predict : ∀ d a, bridge.predictVaultAddress d = .ok a →
    ∃ p, meant d = some p ∧ a = text (predicted chain p)
  bootstrap : ∀ d b, bridge.vaultBootstrap d = .ok b →
    ∃ p, meant d = some p ∧ b.deployedVault = text (predicted chain p)
      ∧ (b.alreadyDeployed = true ↔ chain.accounts (predicted chain p) ≠ none)
  health : ∀ d p, meant d = some p →
    ((∃ health, bridge.healthCheck (text (predicted chain p)) = .ok health)
      ↔ chain.accounts (predicted chain p) ≠ none)

section Details

variable {up : Upper} {bridge : Bridge} {c : ConfigFields}

/-- An address is said to have a vault exactly if its health could be read. -/
theorem deployed_iff_health {address source : Text} {resolution : MandatedVaultResolution}
    (h : resolveAddress up c bridge true address source = .ok resolution) :
    resolution.vaultDeployed = true ↔ ∃ health, bridge.healthCheck address = .ok health := by
  constructor
  · exact (of_resolveAddress h).2.1
  · rintro ⟨health, hhealth⟩
    obtain ⟨found, hfound, h⟩ := bind_ok h
    rw [checkDeployed, hhealth] at hfound
    obtain rfl := Except.ok.inj hfound
    obtain ⟨_, _, h⟩ := bind_ok h
    obtain rfl := Except.ok.inj h
    rfl

/-- **What is shown of a vault that is derived**: the address the bridge derives, and whether the
    chain has an account there. -/
theorem details_of_derived {text : Address → Text} {meant : Derivation → Option Params}
    {chain : Chain} {details : DepositDetails} {p : Params}
    (hbridge : Answers text meant chain bridge) (hgiven : truthy c.mandatedVaultAddress = false)
    (hp : meant c.derivation = some p) (h : getMandatedDepositDetails up c bridge = .ok details) :
    details.fundingAddress = text (predicted chain p)
      ∧ (details.vaultExists = some true ↔ chain.accounts (predicted chain p) ≠ none) := by
  obtain ⟨_, resolution, hresolution, haddress, hexists, _⟩ := of_details h
  rw [haddress, hexists, Option.some.injEq]
  rw [resolveMandatedVault, if_neg (Bool.eq_false_iff.mp hgiven)] at hresolution
  by_cases hderived : (!c.hasMandatedVaultDerivation) = true
  · rw [if_pos hderived] at hresolution
    cases hresolution
  rw [if_neg hderived] at hresolution
  by_cases hbootstrap : bridge.availableTools.contains "vault_bootstrap".toList = true
  · rw [if_pos hbootstrap] at hresolution
    obtain ⟨b, hb, hvault, hdeployed, _⟩ := of_resolveBootstrap hresolution
    obtain ⟨p', hp', hshown, halready⟩ := hbridge.bootstrap _ b hb
    obtain rfl := Option.some.inj (hp.symm.trans hp')
    rw [hvault, hdeployed]
    exact ⟨hshown, halready⟩
  · rw [if_neg hbootstrap] at hresolution
    obtain ⟨a, ha, hresolution⟩ := bind_ok hresolution
    obtain ⟨p', hp', rfl⟩ := hbridge.predict _ a (of_mapError_ok ha)
    obtain rfl := Option.some.inj (hp.symm.trans hp')
    rw [(of_resolveAddress hresolution).1, deployed_iff_health hresolution]
    exact ⟨rfl, hbridge.health _ p hp⟩

end Details

/-! ## Who gets there -/

theorem predicted_run (P : Platform) (S : Setup) (ops : List Op) (p : Params) :
    predicted (run P ops S.constructed) p = (p.origin S.constructed).address :=
  (registry_run P S ops).predictVaultAddressFor_eq p

theorem mem_called_append {before : List Op} (after : List Op) {queried : List Params}
    {p : Params} (hp : p ∈ called before ++ queried) :
    p ∈ called (before ++ after) ++ queried := by
  rw [called, List.filterMap_append]
  rcases List.mem_append.mp hp with hp | hp
  · exact List.mem_append_left _ (List.mem_append_left _ hp)
  · exact List.mem_append_right _ hp

/-- A history hashes no fewer strings when it goes on. -/
theorem saltStrings_append (before after : List Op) (queried : List Params) :
    saltStrings before queried ⊆ saltStrings (before ++ after) queried := by
  intro s hs
  obtain ⟨p, hp, heq⟩ := hs
  exact ⟨p, mem_called_append after hp, heq⟩

theorem addressStrings_append (S : Setup) (before after : List Op) (queried : List Params) :
    addressStrings S before queried ⊆ addressStrings S (before ++ after) queried := by
  intro s hs
  rcases hs with ⟨o, ho, heq⟩ | ⟨p, hp, heq⟩
  · refine Or.inl ⟨o, ?_, heq⟩
    rw [others, List.filterMap_append]
    exact List.mem_append_left _ ho
  · exact Or.inr ⟨p, mem_called_append after hp, heq⟩

section Race

variable {S : Setup} {ops : List Op} {p : Params}
  (hsalts : CollisionFree keccak256 (saltStrings ops [p]))
  (haddresses : CollisionFree addressOf (addressStrings S ops [p]))

include hsalts haddresses in
/-- **One call only.**  The address of a call is taken exactly if the call has been made. -/
theorem occupied_iff (P : Platform) :
    (run P ops S.constructed).accounts (p.origin S.constructed).address ≠ none
      ↔ p ∈ (created P ops S.constructed).map Prod.fst := by
  constructor
  · exact created_of_occupied hsalts haddresses P
      (List.mem_append_right _ (List.mem_singleton_self p))
  · intro hp
    obtain ⟨x, hx, rfl⟩ := List.mem_map.mp hp
    have h := registry_run P S ops
    obtain ⟨w, hw, _⟩ := h.vaults x hx
    rw [← h.address x hx, hw]
    exact Option.some_ne_none _

include hsalts haddresses in
/-- A vault is at the address of a call exactly if it was created by it. -/
theorem at_address_iff (P : Platform) {x : Params × Address}
    (hx : x ∈ created P ops S.constructed) :
    x.2 = (p.origin S.constructed).address ↔ x.1 = p := by
  have h := registry_run P S ops
  constructor
  · intro heq
    obtain ⟨w, hw, _⟩ := h.vaults x hx
    have hocc : (run P ops S.constructed).accounts (p.origin S.constructed).address ≠ none := by
      rw [← heq, hw]
      exact Option.some_ne_none _
    obtain ⟨y, hy, hyp⟩ := List.mem_map.mp ((occupied_iff hsalts haddresses P).mp hocc)
    have hsnd : x.2 = y.2 := by rw [heq, h.address y hy, hyp]
    rw [h.eq_of_snd_eq hx hy hsnd]
    exact hyp
  · rintro rfl
    exact h.address x hx

end Race

/-- A call for an asset and an authority goes through where its address is vacant. -/
theorem createVault_of_vacant {p : Params} {c : Chain} (hauthority : p.authority ≠ 0)
    (hasset : p.asset ≠ 0) (hroom : vaultCount c ≠ BitVec.allOnes 256)
    (hvacant : c.accounts (p.origin c).address = none) (assets native : Uint256) :
    ∃ c', createVault p assets native c = .ok ((p.origin c).address, c') := by
  have hinit : ∃ w, initializeVault p.asset p.name.1 p.symbol.1 p.authority
      (World.fresh (p.origin c).address assets native) = .ok w := by
    simp only [initializeVault, revertIf, World.fresh, if_neg hauthority, if_neg hasset]
    exact ⟨_, rfl⟩
  obtain ⟨w, hw⟩ := hinit
  have hnone : ¬ (c.accounts (p.origin c).address).isSome = true := by
    rw [hvacant]
    exact Bool.false_ne_true
  rw [Params.origin] at hw hnone ⊢
  rw [createVault, if_neg hnone, hw]
  exact ⟨_, if_neg hroom⟩

/-- **The vault that is shown.**  At some moment of a history the details of a deposit are shown,
    for a configuration without an address; `p` is the call that its derivation stands for, with
    the creator that the bridge predicts for.  However the history goes on:

    * the vault is said to exist exactly if this call has been made;
    * of all vaults of the factory it is the one that this call creates that is at the address, and
      no call by anybody else, with the same arguments or with others, gets there;
    * whatever comes to be at the address was created by this call, with its asset and its
      authority, which nobody sets a second time;
    * until the call has been made nobody can keep it from going through, and it then leaves a
      vault with its asset and its authority there. -/
theorem shown_vault (P : Platform) (S : Setup) (before after : List Op) {text : Address → Text}
    (htext : Function.Injective text) {meant : Derivation → Option Params} {up : Upper}
    {c : ConfigFields} {bridge : Bridge} {details : DepositDetails} {p : Params}
    (hbridge : Answers text meant (run P before S.constructed) bridge)
    (hgiven : truthy c.mandatedVaultAddress = false) (hp : meant c.derivation = some p)
    (hsalts : CollisionFree keccak256 (saltStrings (before ++ after) [p]))
    (haddresses : CollisionFree addressOf (addressStrings S (before ++ after) [p]))
    (h : getMandatedDepositDetails up c bridge = .ok details) :
    (details.vaultExists = some true ↔ p ∈ (created P before S.constructed).map Prod.fst)
      ∧ (∀ x ∈ created P (before ++ after) S.constructed,
        text x.2 = details.fundingAddress ↔ x.1 = p)
      ∧ (∀ v, text v = details.fundingAddress →
        (run P (before ++ after) S.constructed).accounts v ≠ none →
          p ∈ (created P (before ++ after) S.constructed).map Prod.fst
          ∧ initializations P v (before ++ after) S.constructed = [(p.asset, p.authority)]
          ∧ ∃ w, (run P (before ++ after) S.constructed).accounts v = some (.vault w)
            ∧ w.asset = p.asset
            ∧ ∀ script, initializeCalls ((vaultMachine P).trace script w) = [])
      ∧ (p ∉ (created P (before ++ after) S.constructed).map Prod.fst → p.authority ≠ 0 →
        p.asset ≠ 0 → vaultCount (run P (before ++ after) S.constructed) ≠ BitVec.allOnes 256 →
        ∀ assets native, ∃ v c',
          createVault p assets native (run P (before ++ after) S.constructed) = .ok (v, c')
          ∧ text v = details.fundingAddress
          ∧ ∃ w, c'.accounts v = some (.vault w) ∧ w.asset = p.asset
            ∧ w.authority = p.authority) := by
  obtain ⟨hfunding, hexists⟩ := details_of_derived hbridge hgiven hp h
  rw [predicted_run] at hfunding hexists
  have hwritten : ∀ v, text v = details.fundingAddress ↔ v = (p.origin S.constructed).address := by
    intro v
    rw [hfunding]
    exact htext.eq_iff
  have hreg := registry_run P S (before ++ after)
  refine ⟨?_, ?_, ?_, ?_⟩
  · rw [hexists]
    exact occupied_iff (hsalts.mono (saltStrings_append before after [p]))
      (haddresses.mono (addressStrings_append S before after [p])) P
  · intro x hx
    rw [hwritten]
    exact at_address_iff hsalts haddresses P hx
  · intro v hv hocc
    obtain rfl := (hwritten v).mp hv
    have hmade := (occupied_iff hsalts haddresses P).mp hocc
    obtain ⟨x, hx, hxp⟩ := List.mem_map.mp hmade
    have hat : x.2 = (p.origin S.constructed).address :=
      (at_address_iff hsalts haddresses P hx).mpr hxp
    obtain ⟨w, hw, hlocked⟩ := hreg.vaults x hx
    rw [← hat]
    refine ⟨hmade, ?_, w, hw, hxp ▸ hlocked.asset_eq, hlocked.initializeCalls_eq P⟩
    rw [initializations_eq P x.2 _ _ _ (registry_constructed S), filter_eq_singleton hreg.nodup hx,
      ← hxp]
    rfl
  · intro hnew hauthority hasset hroom assets native
    have hvacant := not_ne_iff.mp (mt (occupied_iff hsalts haddresses P).mp hnew)
    rw [← hreg.origin_eq p] at hvacant
    obtain ⟨c', hc'⟩ := createVault_of_vacant hauthority hasset hroom hvacant assets native
    refine ⟨_, c', hc', (hwritten _).mpr ?_, _, (createVault_ok hc').vault_eq_fresh, rfl, rfl⟩
    rw [hreg.origin_eq]

namespace Small

open VaultFactory.Small

def text (a : Address) : Text := Texts.decimal a.toNat

/-- A bridge to a chain without vaults that predicts this address. -/
def bridge (address : Text) : Bridge where
  connect := .ok ()
  availableTools := []
  predictVaultAddress _ := .ok address
  vaultBootstrap _ := .error ⟨[]⟩
  prepareCreateVault _ := .ok
    { predictedVault := address
      txRequest :=
        { fromAddress := ['a'], toAddress := ['f'], data := [], value := ['0'], gas := none } }
  healthCheck _ := .error ⟨"VAULT_NOT_DEPLOYED".toList⟩

theorem exists_details (address : Text) :
    ∃ details, getMandatedDepositDetails asciiUpper (smallFields none) (bridge address)
      = .ok details := ⟨_, rfl⟩

theorem answers : Answers text (fun _ => some (params 0xC0)) setup.constructed
    (bridge (text (predicted setup.constructed (params 0xC0)))) where
  predict d a h := ⟨_, rfl, (Except.ok.inj h).symm⟩
  bootstrap := by
    intro d b h
    cases h
  health := by
    intro d p hp
    obtain rfl := Option.some.inj hp
    have hvacant : (setup.constructed.accounts (predicted setup.constructed (params 0xC0))).isNone
        = true := by decide +kernel
    constructor
    · rintro ⟨health, h⟩
      cases h
    · intro hocc
      exact absurd (Option.isNone_iff_eq_none.mp hvacant) hocc

end Small

open VaultFactory.Small in
/-- The details are shown; then two creators make a vault each, with the same arguments. -/
theorem shown_vault_small :
    ∃ details, getMandatedDepositDetails asciiUpper (smallFields none)
        (Small.bridge (Small.text (predicted setup.constructed (params 0xC0)))) = .ok details
      ∧ ∀ x ∈ created .plain history setup.constructed,
        Small.text x.2 = details.fundingAddress ↔ x.1 = params 0xC0 := by
  obtain ⟨details, h⟩ := Small.exists_details
    (Small.text (predicted setup.constructed (params 0xC0)))
  have hsalts : (((called history ++ [params 0xC0]).dedup.map Params.encode).map
      keccak256).Nodup := by decide +kernel
  have haddresses : (((others setup history).map Origin.preimage
      ++ (called history ++ [params 0xC0]).dedup.map fun p =>
        (p.origin setup.constructed).preimage).map addressOf).Nodup := by decide +kernel
  refine ⟨details, h, (shown_vault .plain setup [] history
    (fun a b hab => BitVec.eq_of_toNat_eq (Texts.decimal_injective hab)) Small.answers rfl rfl
    (.of_nodup hsalts ?_) (.of_nodup haddresses ?_) h).2.1⟩
  · intro s hs
    obtain ⟨p, hp, heq⟩ := hs
    exact List.mem_map.mpr ⟨p, List.mem_dedup.mpr hp, heq.symm⟩
  · intro s hs
    rcases hs with ⟨o, ho, heq⟩ | ⟨p, hp, heq⟩
    · exact List.mem_append_left _ (List.mem_map.mpr ⟨o, ho, heq.symm⟩)
    · exact List.mem_append_right _ (List.mem_map.mpr ⟨p, List.mem_dedup.mpr hp, heq.symm⟩)

end ShownVaults

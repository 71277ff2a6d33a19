import MandatedVaultFactory.CircuitBreakerProofs

/-!
# What extensions permit

The two loops over the extensions of a mandate, and the selector check behind them, come to a
condition that does not speak of their order.

* **`Permits`** — the condition: few entries with ascending ids, none unknown and required, and
  each of the two known ones readable and, of the selectors, satisfied.
* **`essence`** — what of the entries the condition reads.
* **`extensions_spec`** — the allowlist step accepts exactly what is permitted, whatever the
  condition does not read; and fewer entries permit more. -/

namespace Vault

open CallTree Encoding

/-- The entries of a blob permit the actions, with the loss limit. -/
structure Permits (P : Platform) (actions : List Action) (exts : List Extension)
    (limit : Uint256) : Prop where
  few : exts.length ≤ maxExtensions
  ascending : exts.Pairwise fun a b => a.id < b.id
  known : ∀ ext ∈ exts, ext.required = true → supportsExtension ext.id = true
  selectors : ∀ ext ∈ exts, ext.id = selectorAllowlistId → ∃ root proofs,
    P.decodeSelectorAllowlist ext.data = some (root, proofs) ∧
    AdapterLib.enforceSelectorAllowlist P actions root proofs maxSelectorProofDepth = .ok ()
  limited : ∀ ext ∈ exts, ext.id = absoluteLossLimitId →
    P.decodeAbsoluteLossLimit ext.data = some limit
  unlimited : (∀ ext ∈ exts, ext.id ≠ absoluteLossLimitId) → limit = BitVec.allOnes 256

/-! ## The two loops -/

theorem canonicalExtensions_iff (exts : List Extension) :
    canonicalExtensions exts = true ↔ exts.Pairwise fun a b => a.id < b.id := by
  refine ⟨canonical_pairwise exts, ?_⟩
  induction exts with
  | nil => intro _; rfl
  | cons a exts ih =>
      intro h
      cases exts with
      | nil => rfl
      | cons b exts =>
          obtain ⟨ha, hrest⟩ := List.pairwise_cons.mp h
          rw [canonicalExtensions, Bool.and_eq_true, decide_eq_true_eq]
          exact ⟨ha b (List.mem_cons_self ..), ih hrest⟩

variable {P : Platform}

/-- One round passes an entry that is known or optional, and can be read if it is known. -/
structure Readable (P : Platform) (ext : Extension) : Prop where
  known : ext.required = true → supportsExtension ext.id = true
  selectors : ext.id = selectorAllowlistId → (P.decodeSelectorAllowlist ext.data).isSome = true
  limit : ext.id = absoluteLossLimitId → (P.decodeAbsoluteLossLimit ext.data).isSome = true

theorem parseExtension_ok_iff (parsed : ParsedExtensions) (ext : Extension) :
    (∃ parsed', parseExtension P parsed ext = .ok parsed') ↔ Readable P ext := by
  constructor
  · rintro ⟨parsed', h⟩
    obtain ⟨hknown, hcases⟩ := parseExtension_ok.mp h
    refine ⟨hknown, fun hid => ?_, fun hid => ?_⟩
    · rcases hcases with ⟨root, proofs, _, hdecode, _⟩ | ⟨_, hloss, _⟩ | ⟨hsel, _⟩
      · rw [hdecode]
        rfl
      · exact absurd (hloss.symm.trans hid) selectorAllowlistId_ne_absoluteLossLimitId
      · exact absurd hid hsel
    · rcases hcases with ⟨_, _, hsel, _⟩ | ⟨threshold, _, hdecode, _⟩ | ⟨_, hloss, _⟩
      · exact absurd (hid.symm.trans hsel) selectorAllowlistId_ne_absoluteLossLimitId
      · rw [hdecode]
        rfl
      · exact absurd hid hloss
  · intro h
    by_cases hsel : ext.id = selectorAllowlistId
    · obtain ⟨⟨root, proofs⟩, hdecode⟩ := Option.isSome_iff_exists.mp (h.selectors hsel)
      exact ⟨_, parseExtension_ok.mpr ⟨h.known, Or.inl ⟨root, proofs, hsel, hdecode, rfl⟩⟩⟩
    · by_cases hloss : ext.id = absoluteLossLimitId
      · obtain ⟨threshold, hdecode⟩ := Option.isSome_iff_exists.mp (h.limit hloss)
        exact ⟨_, parseExtension_ok.mpr
          ⟨h.known, Or.inr (Or.inl ⟨threshold, hloss, hdecode, rfl⟩)⟩⟩
      · exact ⟨parsed, parseExtension_ok.mpr ⟨h.known, Or.inr (Or.inr ⟨hsel, hloss, rfl⟩)⟩⟩

/-- The second loop passes the entries that it can read.  Induction on the entries. -/
theorem foldlM_ok_iff (exts : List Extension) : ∀ parsed : ParsedExtensions,
    (∃ parsed', exts.foldlM (parseExtension P) parsed = .ok parsed') ↔
      ∀ ext ∈ exts, Readable P ext := by
  induction exts with
  | nil => exact fun parsed => ⟨fun _ => List.forall_mem_nil _, fun _ => ⟨parsed, rfl⟩⟩
  | cons ext exts ih =>
      intro parsed
      rw [List.forall_mem_cons, ← parseExtension_ok_iff parsed ext]
      constructor
      · rintro ⟨parsed', h⟩
        rw [List.foldlM_cons] at h
        obtain ⟨mid, hone, hrest⟩ := (bind_ok _ _ _).mp h
        exact ⟨⟨mid, hone⟩, (ih mid).mp ⟨parsed', hrest⟩⟩
      · rintro ⟨⟨mid, hone⟩, hrest⟩
        obtain ⟨parsed', h⟩ := (ih mid).mpr hrest
        refine ⟨parsed', ?_⟩
        rw [List.foldlM_cons]
        exact (bind_ok _ _ _).mpr ⟨mid, hone, h⟩

/-- What one round of parsing does to the selectors. -/
theorem setBy_selectors : SetBy P
    (fun parsed => (parsed.hasSelectorAllowlist, parsed.selectorRoot, parsed.selectorProofs))
    selectorAllowlistId
    fun ext selectors => selectors.1 = true ∧
      P.decodeSelectorAllowlist ext.data = some selectors.2 := by
  intro parsed ext parsed' h
  rcases (parseExtension_ok.mp h).2 with ⟨root, proofs, hid, hdecode, rfl⟩ | ⟨_, hid, _, rfl⟩ |
    ⟨hid, _, rfl⟩
  · exact ⟨fun hother => absurd hid hother, fun _ => ⟨rfl, hdecode⟩⟩
  · exact ⟨fun _ => rfl, fun hsel =>
      absurd (hid.symm.trans hsel) selectorAllowlistId_ne_absoluteLossLimitId⟩
  · exact ⟨fun _ => rfl, fun hsel => absurd hsel hid⟩

/-! ## What is accepted -/

/-- The limit that the loop comes to. -/
def ParsedExtensions.limit (parsed : ParsedExtensions) : Uint256 :=
  if parsed.hasAbsoluteLossLimit then parsed.maxSingleAbsoluteLoss else BitVec.allOnes 256

/-- What the loop has found, against what the entries say. -/
theorem permits_iff_of_foldlM {actions : List Action} {exts : List Extension}
    {parsed : ParsedExtensions} (hfew : exts.length ≤ maxExtensions)
    (hsorted : exts.Pairwise fun a b => a.id < b.id)
    (h : exts.foldlM (parseExtension P) {} = .ok parsed) (limit : Uint256) :
    Permits P actions exts limit ↔
      (parsed.hasSelectorAllowlist = true → AdapterLib.enforceSelectorAllowlist P actions
        parsed.selectorRoot parsed.selectorProofs maxSelectorProofDepth = .ok ()) ∧
      limit = parsed.limit := by
  have hreadable := (foldlM_ok_iff exts {}).mp ⟨parsed, h⟩
  have hsel : ∀ ext ∈ exts, ext.id = selectorAllowlistId → parsed.hasSelectorAllowlist = true ∧
      P.decodeSelectorAllowlist ext.data = some (parsed.selectorRoot, parsed.selectorProofs) :=
    fun ext hmem hid => part_of_mem setBy_selectors h hsorted hmem hid
  have hloss : ∀ ext ∈ exts, ext.id = absoluteLossLimitId → parsed.hasAbsoluteLossLimit = true ∧
      P.decodeAbsoluteLossLimit ext.data = some parsed.maxSingleAbsoluteLoss :=
    fun ext hmem hid => part_of_mem setBy_lossLimit h hsorted hmem hid
  constructor
  · -- from what the entries say to what the loop found
    intro hpermits
    constructor
    · intro hhas
      by_cases hex : ∃ ext ∈ exts, ext.id = selectorAllowlistId
      · obtain ⟨ext, hmem, hid⟩ := hex
        obtain ⟨root, proofs, hdecode, henforce⟩ := hpermits.selectors ext hmem hid
        rw [(hsel ext hmem hid).2, Option.some.injEq, Prod.mk.injEq] at hdecode
        rw [hdecode.1, hdecode.2]
        exact henforce
      · -- without the entry the flag is still down
        have hnone := part_of_not_mem setBy_selectors h fun ext hmem hid => hex ⟨ext, hmem, hid⟩
        have hfalse : parsed.hasSelectorAllowlist = false := congrArg Prod.fst hnone
        rw [hfalse] at hhas
        cases hhas
    · rw [ParsedExtensions.limit]
      by_cases hex : ∃ ext ∈ exts, ext.id = absoluteLossLimitId
      · obtain ⟨ext, hmem, hid⟩ := hex
        obtain ⟨hhas, hdecode⟩ := hloss ext hmem hid
        rw [hpermits.limited ext hmem hid, Option.some.injEq] at hdecode
        rw [if_pos hhas, hdecode]
      · have hno : ∀ ext ∈ exts, ext.id ≠ absoluteLossLimitId :=
          fun ext hmem hid => hex ⟨ext, hmem, hid⟩
        have hnone := part_of_not_mem setBy_lossLimit h hno
        have hfalse : parsed.hasAbsoluteLossLimit = false := congrArg Prod.fst hnone
        rw [hfalse]
        exact hpermits.unlimited hno
  · rintro ⟨henforce, rfl⟩
    refine ⟨hfew, hsorted, fun ext hmem => (hreadable ext hmem).known, fun ext hmem hid => ?_,
      fun ext hmem hid => ?_, fun hno => ?_⟩
    · obtain ⟨hhas, hdecode⟩ := hsel ext hmem hid
      exact ⟨parsed.selectorRoot, parsed.selectorProofs, hdecode, henforce hhas⟩
    · obtain ⟨hhas, hdecode⟩ := hloss ext hmem hid
      rw [ParsedExtensions.limit, if_pos hhas]
      exact hdecode
    · have hnone := part_of_not_mem setBy_lossLimit h hno
      have hfalse : parsed.hasAbsoluteLossLimit = false := congrArg Prod.fst hnone
      rw [ParsedExtensions.limit, hfalse]
      rfl

/-- Entries that are permitted pass both loops. -/
theorem Permits.readable {actions : List Action} {exts : List Extension} {limit : Uint256}
    (h : Permits P actions exts limit) : ∀ ext ∈ exts, Readable P ext := by
  intro ext hmem
  refine ⟨h.known ext hmem, fun hid => ?_, fun hid => ?_⟩
  · obtain ⟨root, proofs, hdecode, _⟩ := h.selectors ext hmem hid
    rw [hdecode]
    rfl
  · rw [h.limited ext hmem hid]
    rfl

/-- **The allowlist step accepts exactly what the entries permit.** -/
theorem validateAllowlists_ok_iff {env : Env} {mandate : Mandate} {actions : List Action}
    {adapterProofs : List (List Bytes32)}
    (hadapters : AdapterLib.validateAdapters P env actions adapterProofs
      mandate.allowedAdaptersRoot maxAdapterProofDepth = .ok ())
    {extensions : Bytes} (hne : extensions.length ≠ 0) (limit : Uint256) :
    validateAllowlists P env mandate actions adapterProofs extensions = .ok limit ↔
      ∃ exts, P.decodeExtensions extensions = some exts ∧ Permits P actions exts limit := by
  simp only [validateAllowlists, bind_ok, exists_unit_ok]
  rw [hadapters, if_neg hne, bind_ok]
  simp only [true_and]
  constructor
  · rintro ⟨parsed, hparse, h⟩
    rw [parseExtensions] at hparse
    cases hdecode : P.decodeExtensions extensions with
    | none =>
        rw [hdecode] at hparse
        cases hparse
    | some exts =>
        simp only [hdecode, bind_ok, revertIf_ok, exists_const, Bool.not_eq_false, not_lt] at hparse
        obtain ⟨hfew, hcanonical, hfold⟩ := hparse
        refine ⟨exts, rfl, (permits_iff_of_foldlM hfew
          ((canonicalExtensions_iff exts).mp hcanonical) hfold limit).mpr ?_⟩
        -- the second loop runs only if the first has found its root
        by_cases hhas : parsed.hasSelectorAllowlist = true
        · rw [if_pos hhas] at h
          obtain ⟨_, henforce, h⟩ := (bind_ok _ _ _).mp h
          exact ⟨fun _ => henforce, ((pure_ok _ _).mp h).symm⟩
        · rw [if_neg hhas] at h
          exact ⟨fun hyes => absurd hyes hhas, ((pure_ok _ _).mp h).symm⟩
  · rintro ⟨exts, hdecode, hpermits⟩
    -- each entry can be read, so the loop ends with something
    obtain ⟨parsed, hfold⟩ := (foldlM_ok_iff exts {}).mpr hpermits.readable
    obtain ⟨henforce, rfl⟩ :=
      (permits_iff_of_foldlM hpermits.few hpermits.ascending hfold limit).mp hpermits
    refine ⟨parsed, ?_, ?_⟩
    · rw [parseExtensions, hdecode]
      simp only [bind_ok, revertIf_ok, exists_const, Bool.not_eq_false, not_lt]
      exact ⟨hpermits.few, (canonicalExtensions_iff exts).mpr hpermits.ascending, hfold⟩
    · by_cases hhas : parsed.hasSelectorAllowlist = true
      · rw [if_pos hhas]
        exact (bind_ok _ _ _).mpr ⟨(), henforce hhas, rfl⟩
      · rw [if_neg hhas]
        rfl

/-! ## What has no effect -/

/-- What of an entry matters: a known one without its flag, an unknown one if it is required. -/
def essential (ext : Extension) : Option Extension :=
  if supportsExtension ext.id then some { ext with required := false }
  else if ext.required then some ext
  else none

def essence (exts : List Extension) : List Extension := exts.filterMap essential

theorem supports_of_selectors {ext : Extension} (h : ext.id = selectorAllowlistId) :
    supportsExtension ext.id = true := by
  rw [supportsExtension, Bool.or_eq_true, decide_eq_true_eq]
  exact Or.inl h

theorem supports_of_limit {ext : Extension} (h : ext.id = absoluteLossLimitId) :
    supportsExtension ext.id = true := by
  rw [supportsExtension, Bool.or_eq_true, decide_eq_true_eq, decide_eq_true_eq]
  exact Or.inr h

/-- A known entry is found in every list with the same essence, up to its flag. -/
theorem exists_of_essence {exts exts' : List Extension} (hsame : essence exts = essence exts')
    {ext : Extension} (hmem : ext ∈ exts') (hknown : supportsExtension ext.id = true) :
    ∃ found ∈ exts, found.id = ext.id ∧ found.data = ext.data := by
  have hin : { ext with required := false } ∈ essence exts := by
    rw [hsame]
    exact List.mem_filterMap.mpr ⟨ext, hmem, if_pos hknown⟩
  obtain ⟨found, hfound, hessential⟩ := List.mem_filterMap.mp hin
  refine ⟨found, hfound, ?_⟩
  rw [essential] at hessential
  by_cases hsupports : supportsExtension found.id = true
  · rw [if_pos hsupports, Option.some.injEq, Extension.mk.injEq] at hessential
    exact ⟨hessential.1, hessential.2.2⟩
  · rw [if_neg hsupports] at hessential
    by_cases hrequired : found.required = true
    · rw [if_pos hrequired, Option.some.injEq] at hessential
      rw [hessential]
      exact ⟨rfl, rfl⟩
    · rw [if_neg hrequired] at hessential
      cases hessential

/-- An unknown entry that is required is found in every list with the same essence. -/
theorem mem_of_essence {exts exts' : List Extension} (hsame : essence exts = essence exts')
    {ext : Extension} (hmem : ext ∈ exts') (hrequired : ext.required = true)
    (hunknown : supportsExtension ext.id ≠ true) : ext ∈ exts := by
  have hin : ext ∈ essence exts := by
    rw [hsame]
    exact List.mem_filterMap.mpr ⟨ext, hmem, by rw [essential, if_neg hunknown, if_pos hrequired]⟩
  obtain ⟨found, hfound, hessential⟩ := List.mem_filterMap.mp hin
  rw [essential] at hessential
  by_cases hsupports : supportsExtension found.id = true
  · rw [if_pos hsupports, Option.some.injEq] at hessential
    rw [← hessential] at hrequired
    cases hrequired
  · rw [if_neg hsupports] at hessential
    by_cases hrequired' : found.required = true
    · rw [if_pos hrequired', Option.some.injEq] at hessential
      exact hessential ▸ hfound
    · rw [if_neg hrequired'] at hessential
      cases hessential

/-- **Lists with one essence permit the same.** -/
theorem permits_of_essence {actions : List Action} {exts exts' : List Extension} {limit : Uint256}
    (hsame : essence exts = essence exts') (hfew : exts'.length ≤ maxExtensions)
    (hsorted : exts'.Pairwise fun a b => a.id < b.id) (h : Permits P actions exts limit) :
    Permits P actions exts' limit := by
  refine ⟨hfew, hsorted, fun ext hmem hrequired => ?_, fun ext hmem hid => ?_,
    fun ext hmem hid => ?_, fun hno => h.unlimited fun ext hmem hid => ?_⟩
  · by_contra hunknown
    exact hunknown (h.known ext (mem_of_essence hsame hmem hrequired hunknown) hrequired)
  · obtain ⟨found, hfound, hids, hdata⟩ :=
      exists_of_essence hsame hmem (supports_of_selectors hid)
    rw [← hdata]
    exact h.selectors found hfound (hids.trans hid)
  · obtain ⟨found, hfound, hids, hdata⟩ := exists_of_essence hsame hmem (supports_of_limit hid)
    rw [← hdata]
    exact h.limited found hfound (hids.trans hid)
  · obtain ⟨found, hfound, hids, _⟩ :=
      exists_of_essence hsame.symm hmem (supports_of_limit hid)
    exact hno found hfound (hids.trans hid)

/-- **Fewer entries permit as much**, with a limit at least as large. -/
theorem permits_of_sublist {actions : List Action} {exts exts' : List Extension}
    {limit : Uint256} (hsub : exts'.Sublist exts) (h : Permits P actions exts limit) :
    ∃ limit', Permits P actions exts' limit' ∧ limit ≤ limit' := by
  by_cases hex : ∃ ext ∈ exts', ext.id = absoluteLossLimitId
  · obtain ⟨ext, hmem, hid⟩ := hex
    exact ⟨limit, ⟨hsub.length_le.trans h.few, h.ascending.sublist hsub,
      fun x hx => h.known x (hsub.subset hx), fun x hx => h.selectors x (hsub.subset hx),
      fun x hx => h.limited x (hsub.subset hx), fun hno => absurd hid (hno ext hmem)⟩, BitVec.le_refl limit⟩
  · refine ⟨BitVec.allOnes 256, ⟨hsub.length_le.trans h.few, h.ascending.sublist hsub,
      fun x hx => h.known x (hsub.subset hx), fun x hx => h.selectors x (hsub.subset hx),
      fun x hx hid => absurd ⟨x, hx, hid⟩ hex, fun _ => rfl⟩, ?_⟩
    rw [BitVec.le_def, BitVec.toNat_allOnes]
    exact Nat.le_sub_one_of_lt limit.isLt

/-! ## What extensions mean -/

/-- **Extensions mean what they permit, and only restrict**: a blob is accepted exactly if it
    decodes to entries that permit the actions; entries and flags outside the essence change
    nothing; with fewer entries, or without any, the limit is at least as large. -/
structure ExtensionsRestrict (P : Platform) (env : Env) (mandate : Mandate)
    (actions : List Action) (adapterProofs : List (List Bytes32)) : Prop where
  accepts : ∀ extensions limit, extensions.length ≠ 0 →
    (validateAllowlists P env mandate actions adapterProofs extensions = .ok limit ↔
      ∃ exts, P.decodeExtensions extensions = some exts ∧ Permits P actions exts limit)
  ignores : ∀ extensions extensions' exts exts', P.decodeExtensions extensions = some exts →
    P.decodeExtensions extensions' = some exts' → essence exts = essence exts' →
    exts.length ≤ maxExtensions → exts'.length ≤ maxExtensions →
    (exts.Pairwise fun a b => a.id < b.id) → (exts'.Pairwise fun a b => a.id < b.id) →
    ∀ limit, validateAllowlists P env mandate actions adapterProofs extensions = .ok limit ↔
      validateAllowlists P env mandate actions adapterProofs extensions' = .ok limit
  restricts : ∀ extensions extensions' exts exts' limit,
    P.decodeExtensions extensions = some exts → P.decodeExtensions extensions' = some exts' →
    exts'.Sublist exts →
    validateAllowlists P env mandate actions adapterProofs extensions = .ok limit →
    ∃ limit', validateAllowlists P env mandate actions adapterProofs extensions' = .ok limit' ∧
      limit ≤ limit'
  without : validateAllowlists P env mandate actions adapterProofs [] = .ok (BitVec.allOnes 256)

theorem length_ne_zero_of_decode {extensions : Bytes} {exts : List Extension}
    (h : P.decodeExtensions extensions = some exts) : extensions.length ≠ 0 := by
  intro hzero
  rw [List.length_eq_zero_iff.mp hzero, P.decodeExtensions_nil] at h
  cases h

/-- **Behind accepted adapters, extensions are parsed to their meaning.** -/
theorem extensions_spec (P : Platform) (env : Env) (mandate : Mandate) (actions : List Action)
    (adapterProofs : List (List Bytes32))
    (hadapters : AdapterLib.validateAdapters P env actions adapterProofs
      mandate.allowedAdaptersRoot maxAdapterProofDepth = .ok ()) :
    ExtensionsRestrict P env mandate actions adapterProofs where
  accepts extensions limit hne := validateAllowlists_ok_iff hadapters hne limit
  ignores extensions extensions' exts exts' hdecode hdecode' hsame hfew hfew' hsorted hsorted'
      limit := by
    rw [validateAllowlists_ok_iff hadapters (length_ne_zero_of_decode hdecode),
      validateAllowlists_ok_iff hadapters (length_ne_zero_of_decode hdecode'), hdecode, hdecode']
    simp only [Option.some.injEq, exists_eq_left']
    exact ⟨permits_of_essence hsame hfew' hsorted', permits_of_essence hsame.symm hfew hsorted⟩
  restricts extensions extensions' exts exts' limit hdecode hdecode' hsub h := by
    obtain ⟨_, hdecoded, hpermits⟩ :=
      (validateAllowlists_ok_iff hadapters (length_ne_zero_of_decode hdecode) limit).mp h
    obtain rfl := Option.some.inj (hdecode.symm.trans hdecoded)
    obtain ⟨limit', hpermits', hle⟩ := permits_of_sublist hsub hpermits
    exact ⟨limit', (validateAllowlists_ok_iff hadapters (length_ne_zero_of_decode hdecode')
      limit').mpr ⟨exts', hdecode', hpermits'⟩, hle⟩
  without := by
    rw [validateAllowlists, hadapters]
    rfl

/-- A platform where one blob decodes, to a loss limit of five. -/
def Small.limiting : Platform :=
  { Platform.plain with
    decodeExtensions := fun extensions =>
      if extensions = [1] then some [⟨absoluteLossLimitId, true, [5]⟩] else none
    decodeExtensions_nil := by decide
    decodeAbsoluteLossLimit := fun data => data.head?.map fun byte => byte.toBitVec.setWidth 256 }

theorem extensions_spec_small :
    ExtensionsRestrict Small.limiting (Small.env Small.executor) (Small.mandate 1 0 0)
      Small.actions [[]] :=
  extensions_spec Small.limiting (Small.env Small.executor) (Small.mandate 1 0 0) Small.actions
    [[]] (by decide +kernel)

/-- The limit is enforced. -/
example : validateAllowlists Small.limiting (Small.env Small.executor) (Small.mandate 1 0 0)
    Small.actions [[]] [1] = .ok 5 := by decide +kernel

end Vault

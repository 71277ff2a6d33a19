import Mathlib.Algebra.Order.BigOperators.GroupWithZero.Finset
import Mathlib.Algebra.Order.Field.Basic
import Mathlib.Algebra.Order.Field.Rat
import Mathlib.Tactic.NormNum
import MandatedVaultFactory.CircuitBreakerProofs
import MandatedVaultFactory.ReplayProofs
import MandatedVaultFactory.RetentionProofs

/-!
# What a set of mandates can cost

The authority signs mandates and hands them out.  Executors use them in any order, adapters do as
they like, assets come and go between the executions.

* **`SignedOnly`** — the authority's signature is valid for no mandate but these.
* **`Journal.nodup_mandates`** — each of them is executed once.
* **`mandates_bound_losses`** — what they can cost together, of all that the vault has had. -/

namespace Vault

open CallTree Chronicles Encoding Ledger Retention

/-! ## Executions as visits -/

/-- The fraction of the assets that an execution under the mandate leaves, at least. -/
def Mandate.keeps (mandate : Mandate) : ℚ :=
  ((10000 - mandate.maxDrawdownBps.toNat : Nat) : ℚ) / 10000

theorem Mandate.keeps_nonneg (mandate : Mandate) : 0 ≤ mandate.keeps :=
  div_nonneg (Nat.cast_nonneg _) (by norm_num)

theorem Mandate.keeps_le_one (mandate : Mandate) : mandate.keeps ≤ 1 := by
  rw [Mandate.keeps, div_le_one (by norm_num)]
  exact_mod_cast Nat.sub_le 10000 mandate.maxDrawdownBps.toNat

/-- The mandate of an execution that an entry reports. -/
def Logged.mandate (e : Logged) : Option Mandate := e.executed.map Prod.snd

/-- The mandates that a log has seen executed, in their order. -/
def mandates (log : List Logged) : List Mandate := log.filterMap Logged.mandate

/-- An execution, as it changes the assets. -/
def Logged.visit (e : Logged) : Option (Visit ℚ) :=
  match e.executed, e.assets with
  | some (_, mandate), some (pre, post) => some ⟨mandate.keeps, pre, post⟩
  | _, _ => none

def visits (log : List Logged) : List (Visit ℚ) := log.filterMap Logged.visit

/-- What the entry of an execution shows: its mandate is one of these, and the loss within it. -/
structure Budgeted (M : Finset Mandate) (e : Logged) (mandate : Mandate) : Prop where
  mem : mandate ∈ M
  within : ∃ pre post, e.assets = some (pre, post)
    ∧ DrawdownLib.Within pre post mandate.maxDrawdownBps.toNat

/-- Every execution in the log. -/
def AllBudgeted (M : Finset Mandate) (log : List Logged) : Prop :=
  ∀ e ∈ log, ∀ mandate, e.mandate = some mandate → Budgeted M e mandate

variable {M : Finset Mandate} {log : List Logged}

theorem AllBudgeted.snoc {e : Logged} (h : AllBudgeted M log)
    (he : ∀ mandate, e.mandate = some mandate → Budgeted M e mandate) :
    AllBudgeted M (log ++ [e]) := by
  intro x hx
  rcases List.mem_append.mp hx with hx | hx
  · exact h x hx
  · rw [List.mem_singleton.mp hx]
    exact he

theorem visit_eq {e : Logged} {mandate : Mandate} {pre post : Nat}
    (hmandate : e.mandate = some mandate) (hassets : e.assets = some (pre, post)) :
    e.visit = some ⟨mandate.keeps, pre, post⟩ := by
  rw [Logged.mandate, Option.map_eq_some_iff] at hmandate
  obtain ⟨⟨a, m⟩, hexecuted, rfl⟩ := hmandate
  rw [Logged.visit, hexecuted, hassets]

theorem visit_eq_none {e : Logged} (h : e.mandate = none) : e.visit = none := by
  rw [Logged.mandate, Option.map_eq_none_iff] at h
  rw [Logged.visit, h]

/-- An execution is a visit that keeps the fraction of its mandate. -/
theorem Budgeted.visit {e : Logged} {mandate : Mandate} (h : Budgeted M e mandate)
    (hmandate : e.mandate = some mandate) :
    ∃ v, e.visit = some v ∧ v.keeps = mandate.keeps ∧ v.Kept := by
  obtain ⟨pre, post, hassets, hwithin⟩ := h.within
  refine ⟨_, visit_eq hmandate hassets, rfl, mandate.keeps_nonneg, mandate.keeps_le_one, ?_⟩
  show (pre : ℚ) * mandate.keeps ≤ post
  rw [Mandate.keeps, ← mul_div_assoc, div_le_iff₀ (by norm_num)]
  exact_mod_cast within_mono hwithin (Nat.le_refl pre)

/-- The visits keep what the mandates allow to be kept. -/
theorem visits_keep (h : AllBudgeted M log) :
    (∀ v ∈ visits log, v.Kept)
      ∧ (visits log).map Visit.keeps = (mandates log).map Mandate.keeps
      ∧ ∀ mandate ∈ mandates log, mandate ∈ M := by
  induction log with
  | nil =>
      exact ⟨fun _ hv => absurd hv List.not_mem_nil, rfl,
        fun _ hm => absurd hm List.not_mem_nil⟩
  | cons e log ih =>
      obtain ⟨hkept, hkeeps, hmem⟩ := ih fun x hx => h x (.tail _ hx)
      rw [visits, mandates]
      cases hmandate : e.mandate with
      | none =>
          rw [List.filterMap_cons_none (visit_eq_none hmandate),
            List.filterMap_cons_none hmandate]
          exact ⟨hkept, hkeeps, hmem⟩
      | some mandate =>
          have hbudgeted := h e (.head _) mandate hmandate
          obtain ⟨v, hvisit, hv, hvkept⟩ := hbudgeted.visit hmandate
          rw [List.filterMap_cons_some hvisit, List.filterMap_cons_some hmandate]
          refine ⟨fun x hx => ?_, ?_, fun m hm => ?_⟩
          · rcases List.mem_cons.mp hx with rfl | hx
            · exact hvkept
            · exact hkept x hx
          · rw [List.map_cons, List.map_cons, hv]
            exact congrArg _ hkeeps
          · rcases List.mem_cons.mp hm with rfl | hm
            · exact hbudgeted.mem
            · exact hmem m hm

/-! ## A mandate is executed once -/

/-- **A mandate is executed once**, as long as epoch numbers have not wrapped around: it names an
    epoch, the epoch has one authority, and under this authority its nonce is executed once. -/
theorem Journal.nodup_mandates {P : Platform} {vault a : Address} (h : Journal P vault a log)
    (hwrap : (replay a log).transfers < 2 ^ 64) : (mandates log).Nodup := by
  have hpairwise : log.Pairwise fun e e' => ∀ mandate,
      ¬ (e.mandate = some mandate ∧ e'.mandate = some mandate) := by
    refine h.pairwise_executed.imp_of_mem ?_
    rintro e e' he he' hne mandate ⟨hm, hm'⟩
    obtain ⟨⟨b, m⟩, hx, rfl⟩ := Option.map_eq_some_iff.mp hm
    obtain ⟨⟨b', m'⟩, hx', hmm⟩ := Option.map_eq_some_iff.mp hm'
    obtain rfl : m' = m := hmm
    obtain ⟨hash, hhash⟩ := executedHash_of_executed hx
    obtain ⟨hash', hhash'⟩ := executedHash_of_executed hx'
    obtain ⟨_, _, hx₁, _, k, hk, hb, hepoch⟩ := h.executed_entry he hhash
    obtain ⟨_, _, hx₂, _, k', hk', hb', hepoch'⟩ := h.executed_entry he' hhash'
    obtain ⟨rfl, rfl⟩ := Prod.mk.inj (Option.some.inj (hx₁.symm.trans hx))
    obtain ⟨rfl, rfl⟩ := Prod.mk.inj (Option.some.inj (hx₂.symm.trans hx'))
    -- the same epoch, hence the same authority
    have hkk : k = k' := by
      have heq := congrArg BitVec.toNat (hepoch.symm.trans hepoch')
      rw [BitVec.toNat_ofNat, BitVec.toNat_ofNat, Nat.mod_eq_of_lt (by omega),
        Nat.mod_eq_of_lt (by omega)] at heq
      exact heq
    subst hkk
    obtain rfl := hb.symm.trans hb'
    exact hne _ _ ⟨Logged.executedWith_iff.mpr ⟨_, hx, rfl⟩,
      Logged.executedWith_iff.mpr ⟨_, hx', rfl⟩⟩
  rw [mandates, List.Nodup, List.pairwise_filterMap]
  refine hpairwise.imp fun hne mandate hm mandate' hm' heq => ?_
  exact hne mandate ⟨hm, heq ▸ hm'⟩

/-! ## Along every run -/

/-- The call executes one of these mandates, or one that the authority has not signed. -/
def SignedOnly (P : Platform) (M : Finset Mandate) (c : Invocation) (w : World) : Prop :=
  ∀ mandate actions signature adapterProofs extensions,
    c.call = .execute mandate actions signature adapterProofs extensions →
    signatureValid P c.env w.authority (hashMandate P c.env.chainId w.self mandate) signature
      = true → mandate ∈ M

/-- The entries of a step outside `execute` report no execution. -/
theorem Step.no_mandate {w w' : World} {env : Env} {call : Call} (hstep : Step env call w w') :
    w'.log = w.log ∨ ∃ e, w'.log = w.log ++ [e] ∧ e.mandate = none := by
  cases hstep with
  | initializeVault => exact Or.inl rfl
  | _ => exact Or.inr ⟨_, rfl, rfl⟩

/-- **The executions of a run are of these mandates**, and keep to them. -/
def budgetContract (P : Platform) (M : Finset Mandate) : VaultContract P (SignedOnly P M) where
  inv w := AllBudgeted M w.log
  rel _ _ := True
  mono _ _ := True
  rel_refl _ := trivial
  rel_trans _ _ := trivial
  mono_refl _ := trivial
  mono_trans _ _ := trivial
  balances _ _ _ h := ⟨h, trivial, trivial⟩
  shares _ _ _ _ _ h := ⟨h, trivial, trivial⟩
  erc20 _ _ _ h := ⟨h, trivial, trivial⟩
  step env call w w' h _ hstep := by
    refine ⟨?_, trivial, trivial⟩
    rcases hstep.no_mandate with hlog | ⟨e, hlog, hnone⟩
    · rw [hlog]
      exact h
    · rw [hlog]
      exact h.snoc fun mandate hsome => nomatch hnone.symm.trans hsome
  execution env mandate actions signature adapterProofs extensions w v h hsigned _ hvalid := by
    refine ⟨fun t => AllBudgeted M t.log, ?_, trivial, fun _ ht => ht,
      fun _ _ _ ht _ _ => ht, fun t mark ht hbound => ⟨?_, trivial, trivial⟩⟩
    · rw [World.begun_eq]
      exact h
    refine ht.snoc fun m hm => ?_
    obtain rfl : mandate = m := Option.some.inj hm
    have hsignature := hvalid.signed
    rw [hvalid.authority_eq, hvalid.mandateHash_eq] at hsignature
    exact ⟨hsigned mandate actions signature adapterProofs extensions rfl hsignature,
      _, _, rfl, hbound.single⟩

/-- **What mandates can cost together.**  If the authority's signature is valid for no mandate but
    those of `M`, then at every point of every run, whatever the executors and adapters do: of all
    that was in the vault and came in between the executions, at least the product of the
    fractions that the mandates of `M` leave is still there or went out between the executions.
    While an execution is running, what it has moved so far counts as moved between executions. -/
theorem mandates_bound_losses {P : Platform} {vault a : Address} {w₀ : World}
    (h₀ : Deployed vault a w₀) (sc : VaultScript) (M : Finset Mandate)
    (hsigned : ∀ c v, Point.enter c v ∈ (vaultMachine P).trace sc w₀ → SignedOnly P M c v) :
    ∀ p ∈ (vaultMachine P).trace sc w₀, (replay a p.state.log).transfers < 2 ^ 64 →
      let initial : ℚ := (totalAssets w₀).toNat
      let now : ℚ := (totalAssets p.state).toNat
      (initial + cameIn initial (visits p.state.log) now) * ∏ mandate ∈ M, mandate.keeps
        ≤ now + wentOut initial (visits p.state.log) now := by
  intro p hp hwrap initial now
  have hbudgeted : AllBudgeted M p.state.log := by
    have hinv : AllBudgeted M w₀.log := by
      obtain ⟨_, asset, name, symbol, assets, native, rfl⟩ := h₀.eq
      exact fun e he => nomatch he
    exact ((Contract.sound (budgetContract P M).toContract sc w₀ hinv hsigned).points p hp).1
  obtain ⟨running, htracks, _⟩ := ((h₀.upheld P sc).points p hp).1
  obtain ⟨hkept, hkeeps, hmem⟩ := visits_keep hbudgeted
  have hle := kept_le hkept initial now
  have hfewer : ∏ mandate ∈ M, mandate.keeps ≤ ((visits p.state.log).map Visit.keeps).prod := by
    rw [hkeeps, ← List.prod_toFinset _ (htracks.journal.nodup_mandates hwrap)]
    refine Finset.prod_le_prod_of_subset_of_le_one (fun mandate hm => ?_)
      (fun mandate _ => mandate.keeps_nonneg) fun mandate _ _ => mandate.keeps_le_one
    exact hmem mandate (List.mem_toFinset.mp hm)
  have hall : 0 ≤ initial + cameIn initial (visits p.state.log) now :=
    add_nonneg (Nat.cast_nonneg _) (cameIn_nonneg _ _ _)
  exact le_trans (mul_le_mul_of_nonneg_left hfewer hall) hle

/-- The call executes one of these mandates, or none at all. -/
def usesOnly (M : Finset Mandate) (c : Invocation) : Bool :=
  match c.call with
  | .execute mandate _ _ _ _ => mandate ∈ M
  | _ => true

theorem signedOnly_of_usesOnly {P : Platform} {M : Finset Mandate} {c : Invocation}
    (h : usesOnly M c = true) (w : World) : SignedOnly P M c w := by
  intro mandate actions signature adapterProofs extensions hcall _
  rw [usesOnly, hcall] at h
  exact of_decide_eq_true h

namespace Small

/-- Mandates that may lose 10 % and 20 %. -/
def twoMandates : Finset Mandate := {mandate 1 1000 3000, mandate 2 2000 3000}

/-- The vault falls from 100 to 90, grows to 190 and falls to 152; the first mandate does not
    serve again. -/
def twoLosses : VaultScript :=
  .history [tx (execution (mandate 1 1000 3000)) (.act (.setAssets 90) .done),
    .act (.setAssets 190) .done,
    tx (execution (mandate 2 2000 3000)) (.act (.setAssets 152) .done),
    tx (execution (mandate 1 1000 3000)) (.act (.setAssets 140) .done)]

end Small

theorem mandates_bound_losses_small :
    ∃ w, (vaultMachine .plain).run Small.twoLosses (Small.deployed 100) = .ok w
      ∧ totalAssets w = 152
      ∧ ((100 : ℚ) + cameIn 100 (visits w.log) 152) * ∏ mandate ∈ Small.twoMandates, mandate.keeps
        ≤ 152 + wentOut 100 (visits w.log) 152 := by
  obtain ⟨w, hw, htest⟩ := (Machine.runsTo_iff (vaultMachine .plain) Small.twoLosses
    (Small.deployed 100) (fun w => totalAssets w = 152
      && decide ((replay Small.authority w.log).transfers < 2 ^ 64))).mp (by decide +kernel)
  obtain ⟨hassets, hwrap⟩ : totalAssets w = 152
      ∧ (replay Small.authority w.log).transfers < 2 ^ 64 := by simpa using htest
  have hcalls := (Machine.callsPass_iff (vaultMachine .plain) Small.twoLosses (Small.deployed 100)
    (fun c _ => usesOnly Small.twoMandates c)).mp (by decide +kernel)
  have hbound := mandates_bound_losses (Small.deployed_deployed 100) Small.twoLosses
    Small.twoMandates (fun c v h => signedOnly_of_usesOnly (hcalls c v h) v) _
    (Machine.idle_mem_trace _ _ _ _ hw) hwrap
  refine ⟨w, hw, hassets, ?_⟩
  have hinitial : (totalAssets (Small.deployed 100)).toNat = 100 := rfl
  have hnow : (totalAssets w).toNat = 152 := by rw [hassets]; rfl
  simp only [Point.state, hinitial, hnow] at hbound
  exact_mod_cast hbound

end Vault

import MandatedVaultFactory.AlikeProofs
import MandatedVaultFactory.EpochMarkProofs

/-!
# No share is minted or burned while `execute` runs

* **`guardContract`** — once the guard is entered, no callback leaves it or changes the
  supply of shares.
* **`Invocation.refusal`** — the calls that are then refused, and with which error.
* **`guard_safety`** — the result, for `execute` on any state. -/

namespace Vault

open CallTree Encoding

/-- The answer to a call that arrives while an execution is running, if it is refused. -/
def Invocation.refusal (c : Invocation) : Option Error :=
  match c.call with
  | .execute .. => some .ReentrancyGuardReentrantCall
  | .share _ => some .VaultBusy
  | _ => none

theorem body_of_refusal {P : Platform} {c : Invocation} {e : Error} {w : World}
    (hent : w.entered) (hc : c.refusal = some e) : (vaultMachine P).body c w = .fail e := by
  obtain ⟨env, call⟩ := c
  rw [Invocation.refusal] at hc
  cases call with
  | execute mandate actions signature adapterProofs extensions =>
      obtain rfl := Option.some.inj hc
      show execute P env mandate actions signature adapterProofs extensions w = _
      rw [execute, nonReentrant_of_entered _ hent]
  | share op =>
      obtain rfl := Option.some.inj hc
      show shareOp P env op w = _
      rw [shareOp, Code.bind_apply, Code.get_apply, Prog.ret_bind, if_pos hent]
      rfl
  | _ => cases hc

/-- Refused calls fail, whatever would happen at their calls out. -/
theorem invoke_of_refusal {P : Platform} {c : Invocation} {e : Error} {w : World}
    (hent : w.entered) (hc : c.refusal = some e) (outs : Nat → Msg → VaultScript) :
    (vaultMachine P).invoke c outs w = .error e := by
  rw [Machine.invoke, body_of_refusal hent hc]
  rfl

/-- What an execution of `w` relies on while its actions run. -/
structure Guarded (w t : World) : Prop where
  entered : t.entered
  totalSupply : t.shares.totalSupply = w.shares.totalSupply
  initialized : w.initialized ≠ 0 → t.initialized ≠ 0

theorem Step.guarded {w t t' : World} {env : Env} {call : Call} (h : Guarded w t)
    (hstep : Step env call t t') : Guarded w t' := by
  cases hstep with
  | initializeVault => exact ⟨h.entered, h.totalSupply, fun _ => (by decide : (1 : BitVec 64) ≠ 0)⟩
  | _ => exact ⟨h.entered, h.totalSupply, h.initialized⟩

/-- **The guard holds**: no call, from whomever and at whatever depth, leaves it or touches
    the supply. -/
def guardContract (P : Platform) (w : World) : VaultContract P (fun _ _ => True) where
  inv t := Guarded w t
  rel _ _ := True
  mono _ _ := True
  rel_refl _ := trivial
  rel_trans _ _ := trivial
  mono_refl _ := trivial
  mono_trans _ _ := trivial
  balances _ _ _ h := ⟨⟨h.entered, h.totalSupply, h.initialized⟩, trivial, trivial⟩
  shares _ _ _ h hent _ := absurd h.entered hent
  erc20 _ _ hl h := ⟨⟨h.entered, hl.trans h.totalSupply, h.initialized⟩, trivial, trivial⟩
  step _ _ _ _ h _ hstep := ⟨hstep.guarded h, trivial, trivial⟩
  execution _ _ _ _ _ _ _ _ h _ hent _ := absurd h.entered hent

theorem guarded_begun (w : World) (env : Env) (mandate : Mandate) :
    Guarded w (w.begun env mandate) := by
  rw [World.begun_eq]
  exact ⟨rfl, rfl, id⟩

section Execute

variable {P : Platform} {env : Env} {mandate : Mandate} {actions : List Action}
  {signature : Bytes} {adapterProofs : List (List Bytes32)} {extensions : Bytes}
  {outs : Nat → Msg → VaultScript} {w : World}

/-- Every point of every callback is guarded. -/
theorem guarded_of_handover {x : Nat × Msg × World}
    (hx : x ∈ (vaultMachine P).handovers
      ⟨env, .execute mandate actions signature adapterProofs extensions⟩ outs w) :
    Guarded w x.2.2
      ∧ ∀ p ∈ (vaultMachine P).trace (outs x.1 x.2.1) x.2.2, Guarded w p.state := by
  obtain ⟨_, v, hvalid, heq⟩ := execute_handovers hx
  rw [heq] at hx
  exact ((guardContract P w).actions_sound outs hvalid.no_value
    (guarded_begun w env mandate) (fun _ _ _ _ _ => trivial)).1 x hx

/-- `execute` calls out in guarded states only. -/
theorem wp_execute_guarded (P : Platform) (env : Env) (mandate : Mandate)
    (actions : List Action) (signature : Bytes) (adapterProofs : List (List Bytes32))
    (extensions : Bytes) (w : World) :
    (execute P env mandate actions signature adapterProofs extensions w).wp
      (fun _ t => Guarded w t) (fun _ t => Guarded w t) (fun _ _ _ => True) w := by
  rcases execute_cases P env mandate actions signature adapterProofs extensions w with
    ⟨e, he⟩ | ⟨_, v, hvalid, he⟩
  · rw [he]
    trivial
  · rw [he, executeRest, Prog.wp_bind]
    refine wp_executeActionsFrom (J := Guarded w) (R := fun _ _ => True) (fun _ _ h _ => h)
      (fun _ _ _ h => h) (fun _ => trivial) (fun _ t _ _ => ?_) actions 0 w _ hvalid.no_value
      (guarded_begun w env mandate) trivial
    rw [Prog.wp_bind]
    exact Code.wp_inline fun _ _ _ => trivial

/-- Cutting the refused calls out of what the adapters do changes nothing. -/
theorem invoke_refuse :
    (vaultMachine P).invoke ⟨env, .execute mandate actions signature adapterProofs extensions⟩
        (fun i m => (outs i m).refuse Invocation.refusal) w
      = (vaultMachine P).invoke
        ⟨env, .execute mandate actions signature adapterProofs extensions⟩ outs w := by
  let K := (guardContract P w).toContract
  refine Prog.exec_congr ?_ ?_ _ 0 w
    (wp_execute_guarded P env mandate actions signature adapterProofs extensions w)
  · intro i m u t ht
    exact K.run_refuse (fun c e s hs hc => body_of_refusal hs.entered hc) (outs i m) t ht
  · intro i m u t t' ht hr
    exact ((Contract.sound K (outs i m) t ht (fun _ _ _ => trivial)).result t' hr).1

end Execute

/-- **No share is minted or burned while `execute` runs.**  Take any call of `execute` in
    any state, and anything its adapters may do.

    * At every point of their callbacks the guard is entered and the supply is the one at
      the start; a nested `execute` or share operation fails, and with all of these cut out
      the result is the same.
    * A successful `execute` releases the guard: every later script and call goes as from
      the state with the old guard slot.  The supply is the same at both snapshots, hence
      assets per share are at least `10000 - maxDrawdownBps` basis points of those before.
    * A failed one leaves the state as it was. -/
theorem guard_safety (P : Platform) (env : Env) (mandate : Mandate) (actions : List Action)
    (signature : Bytes) (adapterProofs : List (List Bytes32)) (extensions : Bytes)
    (outs : Nat → Msg → VaultScript) (w : World) :
    let M := vaultMachine P
    let c : Invocation :=
      ⟨env, .execute mandate actions signature adapterProofs extensions⟩
    (∀ x ∈ M.handovers c outs w, ∀ p ∈ M.trace (outs x.1 x.2.1) x.2.2,
      p.state.entered ∧ p.state.shares.totalSupply = w.shares.totalSupply
      ∧ ∀ c' e, c'.refusal = some e → ∀ outs', M.invoke c' outs' p.state = .error e)
    ∧ M.invoke c (fun i m => (outs i m).refuse Invocation.refusal) w = M.invoke c outs w
    ∧ (∀ r t, M.invoke c outs w = .ok (r, t) →
      r = .assets (totalAssets w) (totalAssets t)
      ∧ ¬ w.entered ∧ ¬ t.entered
      ∧ (∀ sc, AgreeRun (Alike fun _ => true) (M.run sc { t with status := w.status })
        (M.run sc t))
      ∧ (∀ c' outs', Agree (Alike fun _ => true) Eq
        (M.invoke c' outs' { t with status := w.status }) (M.invoke c' outs' t))
      ∧ t.shares.totalSupply = w.shares.totalSupply
      ∧ (totalAssets w).toNat * (10000 - mandate.maxDrawdownBps.toNat)
          * t.shares.totalSupply.toNat
        ≤ (totalAssets t).toNat * 10000 * w.shares.totalSupply.toNat)
    ∧ ∀ e, M.invoke c outs w = .error e → ∀ k, M.run (.call c outs k) w = M.run (k (.error e)) w := by
  refine ⟨?_, invoke_refuse, ?_, ?_⟩
  · intro x hx p hp
    have hguarded := (guarded_of_handover hx).2 p hp
    exact ⟨hguarded.entered, hguarded.totalSupply,
      fun c' e hc outs' => invoke_of_refusal hguarded.entered hc outs'⟩
  · intro r t h
    obtain ⟨hidle, v, s, mark, hvalid, hexec, hbound, rfl, rfl⟩ := execute_invoke_ok h
    have hguarded := ((guardContract P w).actions_sound outs hvalid.no_value
      (guarded_begun w env mandate) (fun _ _ _ _ _ => trivial)).2 s hexec
    have hleft := not_entered_ended s env
      (.execute mandate actions signature adapterProofs extensions) v (totalAssets w) mark
    have halike := Alike.of_idle (fun _ => true) hleft hidle
    refine ⟨rfl, hidle, hleft, fun sc => agree_of_alike halike P sc,
      fun c' outs' => agree_invoke_of_alike halike P c' outs', hguarded.totalSupply, ?_⟩
    have hratio : (totalAssets w).toNat * (10000 - mandate.maxDrawdownBps.toNat)
        ≤ (totalAssets s).toNat * 10000 :=
      within_mono hbound.single (Nat.le_refl _)
    show _ * s.shares.totalSupply.toNat ≤ _
    rw [hguarded.totalSupply]
    exact Nat.mul_le_mul_right _ hratio
  · intro e h k
    rw [Machine.run_call, h]

namespace Small

/-- An adapter that tries to deposit, goes on when that fails, and loses 5. -/
def depositing : Nat → Msg → VaultScript := fun _ _ =>
  .call ⟨env executor executor_ne_zero, .share (.deposit 50 executor)⟩ (fun _ _ => .done) fun r =>
    match r with
    | .ok _ => .done
    | .error _ => .act (.setAssets 95) .done

end Small

/-- The deposit fails, the execution goes through, and may lose its 10 % only. -/
theorem guard_safety_small :
    ∃ t, (vaultMachine .plain).invoke (Small.execution (Small.mandate 1 1000 1000))
        Small.depositing (Small.deployed 100) = .ok (.assets 100 95, t)
      ∧ t.shares.totalSupply = 0 ∧ ¬ t.entered := by
  obtain ⟨r, t, h, htest⟩ := (Machine.invokesTo_iff (vaultMachine .plain)
    (Small.execution (Small.mandate 1 1000 1000)) Small.depositing (Small.deployed 100)
    (fun r _ => r = .assets 100 95)).mp (by decide +kernel)
  obtain rfl : r = .assets 100 95 := by simpa using htest
  obtain ⟨_, _, hok, _⟩ := guard_safety .plain (Small.env Small.executor)
    (Small.mandate 1 1000 1000) Small.actions [] [[]] [] Small.depositing (Small.deployed 100)
  obtain ⟨_, _, hleft, _, _, hsupply, _⟩ := hok _ t h
  exact ⟨t, h, hsupply, hleft⟩

end Vault

import MandatedVaultFactory.GuardProofs

/-!
# Share operations and `execute`: who excludes whom

The guard is written by `execute` and only read by the share operations.  While an execution
runs they are refused; while one of them runs, and has handed control to the token, an
execution is not.

* **`not_excluded`** — a deposit in whose `transferFrom` an execution succeeds, and the
  shares it mints for a price of before.
* **`share_exclusion`** — what does hold: the one direction; a withdrawal burns at the price
  of the moment; and so does a deposit mint, if no execution and no share operation succeeds
  and nothing is taken while the token has control. -/

namespace Vault

open CallTree Encoding

/-! ## The four operations as one -/

/-- Do assets come in? -/
def ShareOp.incoming : ShareOp → Bool
  | .deposit .. => true
  | .mint .. => true
  | .withdraw .. => false
  | .redeem .. => false

/-- The call of the token that moves the assets. -/
def ShareOp.payment (op : ShareOp) (env : Env) (w : World) (assets : Uint256) : Msg :=
  match op with
  | .deposit .. => .transferFrom w.asset env.sender w.self assets
  | .mint .. => .transferFrom w.asset env.sender w.self assets
  | .withdraw _ receiver _ => .transfer w.asset receiver assets
  | .redeem _ receiver _ => .transfer w.asset receiver assets

/-- What is minted or burned. -/
def ShareOp.settle (op : ShareOp) (P : Platform) (env : Env) (shares : Uint256) :
    ShareLedger → Except Error ShareLedger :=
  match op with
  | .deposit _ receiver => P.mintShares receiver shares
  | .mint _ receiver => P.mintShares receiver shares
  | .withdraw _ _ owner => P.burnShares env.sender owner shares
  | .redeem _ _ owner => P.burnShares env.sender owner shares

theorem tokenCall_apply {m : Msg} (hm : m.value = 0) (w : World) :
    tokenCall m w = .call m w (fun r => match r with
      | .ok v => .ret () v
      | .error d => .fail (.Erc4626 d)) := by
  have hpay : { w with nativeBalance := w.nativeBalance - m.value } = w := by
    rw [hm]
    simp
  rw [tokenCall, Code.bind_apply, externalCall, Code.bind_apply, Code.get_apply, Prog.ret_bind,
    if_neg (by rw [hm]; exact BitVec.not_lt_zero), Code.external, hpay]
  show Prog.call m w _ = _
  congr 1
  funext r
  cases r with
  | ok v => rfl
  | error d => rfl

theorem updateShares_apply (f : ShareLedger → Except Error ShareLedger) (w : World) :
    updateShares f w = match f w.shares with
      | .ok l => .ret () { w with shares := l }
      | .error e => .fail e := by
  rw [updateShares, Code.inline]
  cases f w.shares with
  | ok l => rfl
  | error e => rfl

/-- What the caller is told: the other one of the two amounts. -/
def ShareOp.answer (op : ShareOp) (assets shares : Uint256) : Value :=
  match op with
  | .deposit .. => .amount shares
  | .mint .. => .amount assets
  | .withdraw .. => .amount shares
  | .redeem .. => .amount assets

/-- Call the token, then mint. -/
def comeIn (m : Msg) (f : ShareLedger → Except Error ShareLedger) (answer : Value) :
    VaultCode Value := do
  tokenCall m
  updateShares f
  return answer

/-- Burn, then call the token. -/
def goOut (m : Msg) (f : ShareLedger → Except Error ShareLedger) (answer : Value) :
    VaultCode Value := do
  updateShares f
  tokenCall m
  return answer

theorem shareOp_of_quote {P : Platform} {env : Env} {op : ShareOp} {w : World}
    (hent : ¬w.entered) {assets shares : Uint256}
    (hquote : P.quote op (totalAssets w) w.shares = .ok (assets, shares)) :
    shareOp P env op w = (if op.incoming then comeIn else goOut) (op.payment env w assets)
      (op.settle P env shares) (op.answer assets shares) w := by
  rw [shareOp, Code.bind_apply, Code.get_apply, Prog.ret_bind, if_neg hent, Code.bind_apply,
    Code.inline_ok (a := (assets, shares)) (t := w) (by rw [hquote]; rfl), Prog.ret_bind]
  cases op with
  | deposit => rfl
  | mint => rfl
  | withdraw => rfl
  | redeem => rfl

/-- An operation that succeeds was not refused, and got a quote. -/
theorem quote_of_exec_shareOp {P : Platform} {env : Env} {op : ShareOp}
    {O : Nat → Msg → World → Except Bytes World} {n : Nat} {w t : World} {r : Value}
    (h : (shareOp P env op w).exec O n = .ok (r, t)) :
    ¬w.entered ∧ ∃ assets shares, P.quote op (totalAssets w) w.shares = .ok (assets, shares) := by
  rw [shareOp, Code.bind_apply, Code.get_apply, Prog.ret_bind] at h
  by_cases hent : w.entered
  · rw [if_pos hent] at h
    cases h
  · refine ⟨hent, ?_⟩
    cases hquote : P.quote op (totalAssets w) w.shares with
    | ok q => exact ⟨q.1, q.2, rfl⟩
    | error e =>
        rw [if_neg hent, Code.bind_apply,
          Code.inline_error (e := e) (by rw [hquote]; rfl)] at h
        cases h

section Invoke

variable {m : Msg} {f : ShareLedger → Except Error ShareLedger} {answer r : Value}
  {O : Nat → Msg → World → Except Bytes World} {n : Nat} {w t : World}

theorem exec_tokenCall (hm : m.value = 0) (u : Unit) :
    (tokenCall m w).exec O n = .ok (u, t) ↔ O n m w = .ok t := by
  rw [tokenCall_apply hm]
  show (match O n m w with
    | .ok v => (.ret () v : Prog World Msg Bytes Error Unit)
    | .error d => .fail (.Erc4626 d)).exec O (n + 1) = _ ↔ _
  cases O n m w with
  | ok v => simp
  | error d => simp [Prog.exec]

theorem callouts_tokenCall (hm : m.value = 0) : (tokenCall m w).callouts O n = [(n, m, w)] := by
  rw [tokenCall_apply hm]
  show (n, m, w) :: (match O n m w with
    | .ok v => (.ret () v : Prog World Msg Bytes Error Unit)
    | .error d => .fail (.Erc4626 d)).callouts O (n + 1) = _
  cases O n m w with
  | ok v => rfl
  | error d => rfl

theorem exec_updateShares (u : Unit) : (updateShares f w).exec O n = .ok (u, t)
    ↔ ∃ l, f w.shares = .ok l ∧ t = { w with shares := l } := by
  rw [updateShares_apply]
  cases f w.shares with
  | ok l => simp [eq_comm]
  | error e => simp [Prog.exec]

theorem callouts_updateShares : (updateShares f w).callouts O n = [] := by
  rw [updateShares_apply]
  cases f w.shares with
  | ok l => rfl
  | error e => rfl

theorem exec_comeIn (hm : m.value = 0) (h : (comeIn m f answer w).exec O n = .ok (r, t)) :
    ∃ v l, O n m w = .ok v ∧ f v.shares = .ok l ∧ t = { v with shares := l } ∧ r = answer := by
  obtain ⟨u, v, hcall, h⟩ := (Prog.exec_bind_ok ..).mp h
  obtain ⟨u', t', hupdate, h⟩ := (Prog.exec_bind_ok ..).mp h
  obtain ⟨l, hl, rfl⟩ := (exec_updateShares u').mp hupdate
  obtain ⟨rfl, rfl⟩ := Prod.mk.inj (Except.ok.inj h)
  exact ⟨v, l, (exec_tokenCall hm u).mp hcall, hl, rfl, rfl⟩

theorem callouts_comeIn (hm : m.value = 0) :
    (comeIn m f answer w).callouts O n = [(n, m, w)] := by
  rw [comeIn, Code.bind_apply, Prog.callouts_bind_of_silent, callouts_tokenCall hm]
  intro u v i
  rw [Code.bind_apply, Prog.callouts_bind_of_silent, callouts_updateShares]
  intro u' v' j
  rfl

theorem exec_goOut (hm : m.value = 0) (h : (goOut m f answer w).exec O n = .ok (r, t)) :
    ∃ l, f w.shares = .ok l ∧ (goOut m f answer w).callouts O n = [(n, m, { w with shares := l })]
      ∧ O n m { w with shares := l } = .ok t ∧ r = answer := by
  obtain ⟨u, v, hupdate, h⟩ := (Prog.exec_bind_ok ..).mp h
  rw [callouts_updateShares] at h
  obtain ⟨u', t', hcall, h⟩ := (Prog.exec_bind_ok ..).mp h
  obtain ⟨rfl, rfl⟩ := Prod.mk.inj (Except.ok.inj h)
  obtain ⟨l, hl, rfl⟩ := (exec_updateShares u).mp hupdate
  refine ⟨l, hl, ?_, (exec_tokenCall hm u').mp hcall, rfl⟩
  rw [goOut, Code.bind_apply, updateShares_apply, hl]
  show ((tokenCall m { w with shares := l }).bind
    (fun _ v => (.ret answer v : Prog World Msg Bytes Error Value))).callouts O n = _
  rw [Prog.callouts_bind_of_silent, callouts_tokenCall hm]
  intro a b j
  rfl

end Invoke

/-! ## What leaves the supply alone -/

/-- The supply of shares is the same. -/
def SameSupply (w t : World) : Prop := t.shares.totalSupply = w.shares.totalSupply

theorem Step.shares {env : Env} {call : Call} {w t : World} (h : Step env call w t) :
    t.shares = w.shares := by
  cases h with
  | _ => rfl

theorem wp_atomic_sameSupply {C G : World → World → Prop} {f : World → Except Error World}
    {w u : World} (h : ∀ t, f w = .ok t → t.shares = w.shares) :
    (atomic f w).wp C G (fun _ _ t => SameSupply w t) u := by
  refine Code.wp_inline ?_
  intro a t hf
  cases hfw : f w with
  | error e => rw [hfw] at hf; exact nomatch hf
  | ok t' =>
      rw [hfw] at hf
      obtain rfl : t' = t := congrArg Prod.snd (Except.ok.inj hf)
      rw [SameSupply, h t' hfw]

theorem wp_sweepNative_sameSupply (env : Env) (recipient : Address) (amount : Uint256)
    (w : World) : (sweepNative env recipient amount w).wp (fun _ _ => True) SameSupply
      (fun _ _ t => SameSupply w t) w := by
  rw [sweepNative, Code.bind_apply, Code.get_apply, Prog.ret_bind]
  split_ifs with hauth hzero
  · trivial
  · trivial
  · rw [Code.bind_apply, Code.set_apply, Prog.ret_bind, Code.bind_apply, Prog.wp_bind,
      externalCall, Code.bind_apply, Code.get_apply, Prog.ret_bind]
    split_ifs with hlt
    · trivial
    · exact Code.wp_external trivial (fun t ht => ht) (fun d => trivial)

/-- A call that is neither `execute` nor a share operation leaves the supply alone, if what
    happens at its calls out does. -/
theorem wp_sameSupply (P : Platform) (c : Invocation) (w : World) (hc : c.refusal = none) :
    ((vaultMachine P).body c w).wp (fun _ _ => True) SameSupply
      (fun _ _ t => SameSupply w t) w := by
  obtain ⟨env, call⟩ := c
  cases call with
  | initializeVault asset name symbol authority =>
      refine wp_atomic_sameSupply fun t h => ?_
      have hstep : Step env _ w t := step_of_initializeVault h
      exact hstep.shares
  | proposeAuthority newAuthority =>
      exact wp_atomic_sameSupply fun t h => (step_of_proposeAuthority h).shares
  | acceptAuthority => exact wp_atomic_sameSupply fun t h => (step_of_acceptAuthority h).shares
  | resetEpoch => exact wp_atomic_sameSupply fun t h => (step_of_resetEpoch h).shares
  | invalidateNonce nonce =>
      exact wp_atomic_sameSupply fun t h => (step_of_invalidateNonce h).shares
  | invalidateNoncesBelow threshold =>
      exact wp_atomic_sameSupply fun t h => (step_of_invalidateNoncesBelow h).shares
  | revokeMandate mandateHash =>
      exact wp_atomic_sameSupply fun t h => (step_of_revokeMandate h).shares
  | execute mandate actions signature adapterProofs extensions => exact nomatch hc
  | share op => exact nomatch hc
  | erc20 op =>
      show ((updateShares (P.erc20 env.sender op) w).bind _).wp _ _ _ w
      rw [updateShares_apply]
      cases hl : P.erc20 env.sender op w.shares with
      | error e => trivial
      | ok l => exact P.totalSupply_erc20 _ _ _ _ hl
  | sweepNative recipient amount => exact wp_sweepNative_sameSupply env recipient amount w

/-- What the outside does, without an execution or a share operation, leaves the supply
    alone. -/
theorem sameSupply_of_made (P : Platform) (sc : VaultScript) (w t : World)
    (hmade : ∀ c ∈ (vaultMachine P).made sc w, c.refusal = none)
    (h : (vaultMachine P).run sc w = .ok t) : SameSupply w t := by
  have hrefl : ∀ w, SameSupply w w := fun _ => rfl
  have htrans : ∀ w t u, SameSupply w t → SameSupply t u → SameSupply w u :=
    fun _ _ _ h h' => Eq.trans h' h
  have hmove : ∀ d w, SameSupply w ((vaultMachine P).move d w) := by
    intro d w
    cases d with
    | setAssets balance => rfl
    | receiveNative amount => rfl
  exact (vaultMachine P).rel_of_made hrefl htrans hmove (wp_sameSupply P) sc w t hmade h

/-! ## The result -/

/-- What an ERC-4626 vault asks for a deposit depends on the ledger through the supply only. -/
def Platform.PricesBySupply (P : Platform) : Prop :=
  ∀ op l l' assets, op.incoming = true → l.totalSupply = l'.totalSupply →
    P.quote op assets l = P.quote op assets l'

theorem payment_value (op : ShareOp) (env : Env) (w : World) (assets : Uint256) :
    (op.payment env w assets).value = 0 := by
  cases op with
  | _ => rfl

/-- With a gift on top of the payment, the assets without both are those of before. -/
theorem sub_given {before after assets : Uint256} {given : Nat}
    (h : after.toNat = before.toNat + assets.toNat + given) :
    after - BitVec.ofNat 256 given - assets = before := by
  have hsum := congrArg (BitVec.ofNat 256) h
  simp only [BitVec.ofNat_add, BitVec.ofNat_toNat, BitVec.setWidth_eq] at hsum
  rw [hsum, BitVec.add_sub_cancel, BitVec.add_sub_cancel]

/-- With something taken, the assets without the payment are short of those of before. -/
theorem add_taken {before after assets : Uint256} {taken : Nat}
    (h : after.toNat + taken = before.toNat + assets.toNat) :
    after - assets + BitVec.ofNat 256 taken = before := by
  have hsum := congrArg (BitVec.ofNat 256) h
  simp only [BitVec.ofNat_add, BitVec.ofNat_toNat, BitVec.setWidth_eq] at hsum
  rw [BitVec.sub_add_comm, hsum, BitVec.add_sub_cancel]

/-- **Who excludes whom.**

    * While `execute` runs, share operations and further executions fail, at any depth.
    * A withdrawal or redemption makes no call out before it burns: the shares burned are
      those that assets and supply imply at the moment of the burn.
    * A deposit or mint makes one, of the token's `transferFrom`.  If no execution and no
      share operation succeeds during it, the supply at the mint is that of the quote, and
      the shares minted are those that it implies together with the assets then, less those
      being moved and those the token has given on top.  If the token has taken some, or
      delivered too little, the price is that of the assets with these put back. -/
theorem share_exclusion (P : Platform) (hprices : P.PricesBySupply) :
    (∀ env mandate actions signature adapterProofs extensions outs w,
      ∀ x ∈ (vaultMachine P).handovers
        ⟨env, .execute mandate actions signature adapterProofs extensions⟩ outs w,
      ∀ p ∈ (vaultMachine P).trace (outs x.1 x.2.1) x.2.2,
      ∀ c e, c.refusal = some e → ∀ outs', (vaultMachine P).invoke c outs' p.state = .error e)
    ∧ ∀ env op outs w r t, (vaultMachine P).invoke ⟨env, .share op⟩ outs w = .ok (r, t) →
      ∃ assets shares, P.quote op (totalAssets w) w.shares = .ok (assets, shares)
        ∧ (op.incoming = false → ∃ l, op.settle P env shares w.shares = .ok l
          ∧ (vaultMachine P).handovers ⟨env, .share op⟩ outs w
            = [(0, op.payment env w assets, { w with shares := l })])
        ∧ (op.incoming = true → ∃ v l,
          (vaultMachine P).handovers ⟨env, .share op⟩ outs w
            = [(0, op.payment env w assets, w)]
          ∧ (vaultMachine P).run (outs 0 (op.payment env w assets)) w = .ok v
          ∧ op.settle P env shares v.shares = .ok l ∧ t = { v with shares := l }
          ∧ ((∀ c ∈ (vaultMachine P).made (outs 0 (op.payment env w assets)) w,
              c.refusal = none) →
            v.shares.totalSupply = w.shares.totalSupply
            ∧ (∀ given : Nat,
              (totalAssets v).toNat = (totalAssets w).toNat + assets.toNat + given →
              P.quote op (totalAssets v - BitVec.ofNat 256 given - assets) v.shares
                = .ok (assets, shares))
            ∧ ∀ taken : Nat,
              (totalAssets v).toNat + taken = (totalAssets w).toNat + assets.toNat →
              P.quote op (totalAssets v - assets + BitVec.ofNat 256 taken) v.shares
                = .ok (assets, shares))) := by
  refine ⟨?_, ?_⟩
  · intro env mandate actions signature adapterProofs extensions outs w x hx p hp c e hc outs'
    -- the guard is set at every point inside a handover
    exact invoke_of_refusal ((guarded_of_handover hx).2 p hp).entered hc outs'
  · intro env op outs w r t h
    have h : (shareOp P env op w).exec ((vaultMachine P).oracle outs) 0 = .ok (r, t) := h
    obtain ⟨hent, assets, shares, hquote⟩ := quote_of_exec_shareOp h
    have hvalue := payment_value op env w assets
    have hbody : shareOp P env op w = _ := shareOp_of_quote hent hquote
    have hhandovers : (vaultMachine P).handovers ⟨env, .share op⟩ outs w
        = (shareOp P env op w).callouts ((vaultMachine P).oracle outs) 0 := rfl
    rw [hbody] at h
    rw [hhandovers, hbody]
    refine ⟨assets, shares, hquote, ?_, ?_⟩
    · intro hout
      rw [hout] at h ⊢
      obtain ⟨l, hl, hcallouts, _, _⟩ := exec_goOut hvalue h
      exact ⟨l, hl, hcallouts⟩
    · intro hin
      rw [hin] at h ⊢
      obtain ⟨v, l, hrun, hl, ht, _⟩ := exec_comeIn hvalue h
      refine ⟨v, l, callouts_comeIn hvalue, hrun, hl, ht, ?_⟩
      intro hmade
      -- shares come and go only by calls that are refused here
      have hsupply := sameSupply_of_made P _ w v hmade hrun
      -- without the payment, the gift and the taking, the assets are those of the quote
      have hprice : P.quote op (totalAssets w) v.shares = .ok (assets, shares) := by
        rw [hprices op v.shares w.shares (totalAssets w) hin hsupply]
        exact hquote
      refine ⟨hsupply, fun given hgiven => ?_, fun taken htaken => ?_⟩
      · rw [sub_given hgiven]
        exact hprice
      · rw [add_taken htaken]
        exact hprice

/-! ## A deposit with an execution inside -/

/-- The price of an ERC-4626 vault with one virtual share and one virtual asset, rounded in
    its favour; an owner's shares limit what it can take out. -/
def erc4626Quote (op : ShareOp) (assets : Uint256) (l : ShareLedger) :
    Except Error (Uint256 × Uint256) :=
  let A := assets.toNat + 1
  let S := l.totalSupply.toNat + 1
  match op with
  | .deposit a _ => .ok (a, BitVec.ofNat 256 (a.toNat * S / A))
  | .mint s _ => .ok (BitVec.ofNat 256 ((s.toNat * A + S - 1) / S), s)
  | .withdraw a _ owner =>
      if (l.balanceOf owner).toNat * A / S < a.toNat then .error (.Erc4626 [])
      else .ok (a, BitVec.ofNat 256 ((a.toNat * S + A - 1) / A))
  | .redeem s _ owner =>
      if l.balanceOf owner < s then .error (.Erc4626 [])
      else .ok (BitVec.ofNat 256 (s.toNat * A / S), s)

def Platform.erc4626 : Platform := { Platform.plain with quote := erc4626Quote }

theorem pricesBySupply_erc4626 : Platform.erc4626.PricesBySupply := by
  intro op l l' assets hin hsupply
  show erc4626Quote op assets l = erc4626Quote op assets l'
  cases op with
  | deposit a receiver => simp only [erc4626Quote, hsupply]
  | mint s receiver => simp only [erc4626Quote, hsupply]
  | withdraw => exact nomatch hin
  | redeem => exact nomatch hin

namespace Small

/-- A vault with a hundred assets, and a hundred shares for them. -/
def funded : World :=
  { deployed 100 with shares := { totalSupply := 100, balanceOf := fun _ => 0,
                                  allowance := fun _ _ => 0 } }

def deposit (assets : Uint256) : Invocation where
  env := env executor executor_ne_zero
  call := .share (.deposit assets executor)

/-- The token lets somebody act before it moves the assets. -/
def moving (before : VaultScript → VaultScript) (balance : Uint256) : Nat → Msg → VaultScript :=
  fun _ _ => before (.act (.setAssets balance) .done)

/-- The executor has the adapter lose ten of a hundred assets. -/
def executing (k : VaultScript) : VaultScript :=
  .call (execution (mandate 1 1000 1000)) (fun _ _ => .act (.setAssets 90) .done) fun _ => k

/-- Somebody else deposits a hundred. -/
def depositingFirst (k : VaultScript) : VaultScript :=
  .call (deposit 100) (fun _ _ => .act (.setAssets 200) .done) fun _ => k

end Small

/-- In the `transferFrom` of a deposit of 50 an execution succeeds and loses ten assets.  Fifty
    shares are minted, for which at the mint 55 would have been right.  A deposit inside a
    deposit shifts the price as well: one share instead of none. -/
theorem not_excluded :
    (∃ t, (vaultMachine .erc4626).invoke (Small.deposit 50) (Small.moving Small.executing 140)
        Small.funded = .ok (.amount 50, t)
      ∧ t.log.length = 1 ∧ totalAssets t = 140
      ∧ erc4626Quote (.deposit 50 Small.executor) (140 - 50) Small.funded.shares = .ok (50, 55))
    ∧ ∃ t, (vaultMachine .erc4626).invoke (Small.deposit 101)
        (Small.moving Small.depositingFirst 301) (Small.deployed 100) = .ok (.amount 1, t)
      ∧ totalAssets t = 301 ∧ t.shares.totalSupply = 1
      ∧ erc4626Quote (.deposit 101 Small.executor) (301 - 101) (Small.deployed 100).shares
        = .ok (101, 0) := by
  refine ⟨?_, ?_⟩
  · obtain ⟨r, t, h, htest⟩ := (Machine.invokesTo_iff (vaultMachine .erc4626) (Small.deposit 50)
      (Small.moving Small.executing 140) Small.funded
      (fun r t => r = .amount 50 ∧ t.log.length = 1 ∧ totalAssets t = 140)).mp (by decide +kernel)
    obtain ⟨rfl, hlog, hassets⟩ := of_decide_eq_true htest
    exact ⟨t, h, hlog, hassets, rfl⟩
  · obtain ⟨r, t, h, htest⟩ := (Machine.invokesTo_iff (vaultMachine .erc4626) (Small.deposit 101)
      (Small.moving Small.depositingFirst 301) (Small.deployed 100)
      (fun r t => r = .amount 1 ∧ totalAssets t = 301 ∧ t.shares.totalSupply = 1)).mp
      (by decide +kernel)
    obtain ⟨rfl, hassets, hsupply⟩ := of_decide_eq_true htest
    exact ⟨t, h, hassets, hsupply, rfl⟩

/-- A deposit whose token does nothing but move the assets. -/
theorem share_exclusion_small :
    ∃ t, (vaultMachine .erc4626).invoke (Small.deposit 50) (Small.moving id 150) Small.funded
        = .ok (.amount 50, t)
      ∧ erc4626Quote (.deposit 50 Small.executor) (totalAssets Small.funded) Small.funded.shares
        = .ok (50, 50)
      ∧ ∃ v, (vaultMachine .erc4626).run (Small.moving id 150 0
          (.transferFrom Small.asset Small.executor Small.vault 50)) Small.funded = .ok v
        ∧ v.shares.totalSupply = 100 := by
  obtain ⟨r, t, h, htest⟩ := (Machine.invokesTo_iff (vaultMachine .erc4626) (Small.deposit 50)
    (Small.moving id 150) Small.funded (fun r _ => r = .amount 50)).mp (by decide +kernel)
  obtain rfl := of_decide_eq_true htest
  obtain ⟨_, hshare⟩ := share_exclusion .erc4626 pricesBySupply_erc4626
  obtain ⟨assets, shares, hquote, _, hin⟩ := hshare _ _ _ _ _ _ h
  obtain ⟨rfl, rfl⟩ := Prod.mk.inj (Except.ok.inj hquote)
  obtain ⟨v, l, _, hrun, _, _, hquiet⟩ := hin rfl
  exact ⟨t, h, rfl, v, hrun, (hquiet (fun _ hc => nomatch hc)).1⟩

end Vault

import MandatedVaultFactory.VaultStepProofs

/-!
# What the authority signed is what runs

* **`abiEncodeActions_inj`**, **`abiEncodeMandate_injective`**, **`typedDataPreimage_inj`** —
  none of the strings hashed for a digest loses anything.
* **`Request`** — a call of `execute`, and the strings its digest depends on.
* **`signed_is_executed`** — the result. -/

namespace Vault

open CallTree Encoding Keccak

/-! ## Encodings lose nothing -/

/-- The head of an array has one word for each element.  Induction on the elements. -/
theorem length_offsets (es : List Bytes) : ∀ n, (offsets n es).flatten.length = 32 * es.length := by
  induction es with
  | nil => intro n; rfl
  | cons e es ih =>
      intro n
      rw [offsets, List.flatten_cons, List.length_append, length_word, ih, List.length_cons]
      omega

theorem prefixFree_abiEncodeAction : PrefixFree abiEncodeAction := by
  intro action action' x y h
  simp only [abiEncodeAction, List.append_assoc] at h
  obtain ⟨haddr, h⟩ := prefixFree_word _ _ _ _ h
  obtain ⟨hvalue, h⟩ := prefixFree_word _ _ _ _ h
  obtain ⟨_, h⟩ := prefixFree_word _ _ _ _ h
  obtain ⟨hdata, h⟩ := prefixFree_lengthPrefixed _ _ _ _ h
  refine ⟨?_, h⟩
  have hadapter := setWidth_inj (by omega) haddr
  obtain ⟨a, v, d⟩ := action
  obtain ⟨a', v', d'⟩ := action'
  simp only at hadapter hvalue hdata
  rw [hadapter, hvalue, hdata]

/-- `abi.encode` of an action list determines the list, if its length fits in a word. -/
theorem abiEncodeActions_inj {actions actions' : List Action}
    (hlen : actions.length < 2 ^ 256) (hlen' : actions'.length < 2 ^ 256)
    (h : abiEncodeActions actions = abiEncodeActions actions') : actions = actions' := by
  simp only [abiEncodeActions, List.append_assoc] at h
  obtain ⟨_, h⟩ := prefixFree_word _ _ _ _ h
  obtain ⟨hcount, h⟩ := prefixFree_word _ _ _ _ h
  have heq : actions.length = actions'.length := by
    have := congrArg BitVec.toNat hcount
    rwa [BitVec.toNat_ofNat, BitVec.toNat_ofNat, Nat.mod_eq_of_lt hlen,
      Nat.mod_eq_of_lt hlen'] at this
  -- heads of the same length in front, so the tails are equal
  obtain ⟨_, htails⟩ := List.append_inj h (by
    rw [length_offsets, length_offsets, List.length_map, List.length_map, heq])
  rw [← List.flatMap_def, ← List.flatMap_def] at htails
  exact (prefixFree_abiEncodeAction.flatMap_inj actions actions' [] [] heq
    (by rw [htails])).1

/-- The words `hashMandate` hashes first. -/
def mandateWords (mandate : Mandate) : List Bytes32 :=
  [mandateTypehash, mandate.executor.setWidth 256, mandate.nonce,
    mandate.deadline.setWidth 256, mandate.authorityEpoch.setWidth 256,
    mandate.maxDrawdownBps.setWidth 256, mandate.maxCumulativeDrawdownBps.setWidth 256,
    mandate.allowedAdaptersRoot, mandate.payloadDigest, mandate.extensionsHash]

theorem abiEncodeMandate_injective : Function.Injective abiEncodeMandate := by
  have hwords : ∀ m : Mandate, abiEncodeMandate m = (mandateWords m).flatMap word := by
    intro m
    simp [abiEncodeMandate, mandateWords]
  intro m m' h
  rw [hwords, hwords] at h
  have hfields := flatMap_word_inj (by rfl) h
  simp only [mandateWords, List.cons.injEq, true_and, and_true] at hfields
  obtain ⟨h1, h2, h3, h4, h5, h6, h7, h8, h9⟩ := hfields
  obtain ⟨executor, nonce, deadline, epoch, drawdown, cumulative, root, payload, ext⟩ := m
  obtain ⟨executor', nonce', deadline', epoch', drawdown', cumulative', root', payload', ext'⟩ := m'
  congr 1
  · exact setWidth_inj (by omega) h1
  · exact setWidth_inj (by omega) h3
  · exact setWidth_inj (by omega) h4
  · exact setWidth_inj (by omega) h5
  · exact setWidth_inj (by omega) h6

theorem domainPreimage_inj {chainId chainId' : Uint256} {vault vault' : Address}
    (h : domainPreimage chainId vault = domainPreimage chainId' vault') :
    chainId = chainId' ∧ vault = vault' := by
  simp only [domainPreimage, List.append_assoc] at h
  obtain ⟨_, h⟩ := prefixFree_word _ _ _ _ h
  obtain ⟨_, h⟩ := prefixFree_word _ _ _ _ h
  obtain ⟨_, h⟩ := prefixFree_word _ _ _ _ h
  obtain ⟨hchain, hvault⟩ := word_append_inj h
  exact ⟨hchain, setWidth_inj (by omega) hvault⟩

/-- A digest's string determines the hash of the domain and that of the struct. -/
theorem typedDataPreimage_inj {chainId chainId' : Uint256} {vault vault' : Address}
    {structHash structHash' : Bytes32}
    (h : typedDataPreimage chainId vault structHash
      = typedDataPreimage chainId' vault' structHash') :
    keccak256 (domainPreimage chainId vault) = keccak256 (domainPreimage chainId' vault')
      ∧ structHash = structHash' := by
  simp only [typedDataPreimage, List.append_assoc] at h
  exact word_append_inj (List.append_cancel_left h)

/-! ## Calls of `execute` -/

/-- A call of `execute`. -/
structure Request where
  env : Env
  mandate : Mandate
  actions : List Action
  signature : Bytes
  adapterProofs : List (List Bytes32)
  extensions : Bytes

namespace Request

def invocation (q : Request) : Invocation :=
  ⟨q.env, .execute q.mandate q.actions q.signature q.adapterProofs q.extensions⟩

/-- The digest that is verified when the vault `w` is called. -/
def digest (P : Platform) (w : World) (q : Request) : Bytes32 :=
  hashMandate P q.env.chainId w.self q.mandate

/-- The strings that are hashed for it, and to check what it commits to. -/
def strings (w : World) (q : Request) : List Bytes :=
  [typedDataPreimage q.env.chainId w.self (keccak256 (abiEncodeMandate q.mandate)),
    domainPreimage q.env.chainId w.self, abiEncodeMandate q.mandate, q.extensions,
    abiEncodeActions q.actions]

/-- Proofs that pass the adapter allowlist. -/
def AcceptsProofs (P : Platform) (q : Request) (adapterProofs : List (List Bytes32)) : Prop :=
  adapterProofs.length = q.actions.length
    ∧ AdapterLib.validateAdapters P q.env q.actions adapterProofs q.mandate.allowedAdaptersRoot
      maxAdapterProofDepth = .ok ()

end Request

/-- The call that carries out an action. -/
def Action.msg (action : Action) : Msg := .adapter action.adapter action.value action.data

/-- If all actions succeed, the calls made are the actions.  Induction on the actions. -/
theorem executeActionsFrom_messages (O : Nat → Msg → World → Except Bytes World) :
    ∀ (actions : List Action) (i n : Nat) (t s : World),
      (∀ action ∈ actions, action.value = 0) →
      (executeActionsFrom i actions t).exec O n = .ok ((), s) →
      ((executeActionsFrom i actions t).callouts O n).map (fun x => x.2.1)
        = actions.map Action.msg := by
  intro actions
  induction actions with
  | nil => intro i n t s _ _; rfl
  | cons action actions ih =>
      intro i n t s hv h
      have hv' := fun a ha => hv a (List.mem_cons_of_mem action ha)
      rw [executeActionsFrom_cons i action actions t (hv action (List.mem_cons_self ..))] at h ⊢
      have h' : (afterAction i actions (O n action.msg t)).exec O (n + 1) = .ok ((), s) := h
      show action.msg
        :: ((afterAction i actions (O n action.msg t)).callouts O (n + 1)).map (fun x => x.2.1) = _
      cases hr : O n action.msg t with
      | error d => rw [hr] at h'; cases h'
      | ok t' =>
          rw [hr] at h'
          rw [List.map_cons, ← ih (i + 1) (n + 1) t' s hv' h']
          rfl

section Valid

variable {P : Platform} {q q' : Request} {w w' : World} {v v' : Validated}

/-- A valid mandate is executed with few actions. -/
theorem MandateValid.length_actions_lt
    (h : MandateValid P q.env q.mandate q.actions q.signature q.adapterProofs q.extensions w v) :
    q.actions.length < 2 ^ 256 := by
  have hle : q.actions.length ≤ 32 := h.fields.actions
  omega

/-- What a valid mandate's digest commits to. -/
theorem Request.eq_of_digest
    (h : MandateValid P q.env q.mandate q.actions q.signature q.adapterProofs q.extensions w v)
    (h' : MandateValid P q'.env q'.mandate q'.actions q'.signature q'.adapterProofs q'.extensions
      w' v')
    (hfree : CollisionFree keccak256 {s | s ∈ q.strings w ++ q'.strings w'})
    (hdigest : q.digest P w = q'.digest P w') :
    w.self = w'.self ∧ q.env.chainId = q'.env.chainId ∧ q.mandate = q'.mandate
      ∧ q.extensions = q'.extensions ∧ (q.mandate.payloadDigest ≠ 0 → q.actions = q'.actions) := by
  have hmem : ∀ s ∈ q.strings w, s ∈ q.strings w ++ q'.strings w' :=
    fun s hs => List.mem_append_left _ hs
  have hmem' : ∀ s ∈ q'.strings w', s ∈ q.strings w ++ q'.strings w' :=
    fun s hs => List.mem_append_right _ hs
  rw [Request.digest, Request.digest, hashMandate, hashMandate, P.hashTypedDataV4_eq,
    P.hashTypedDataV4_eq] at hdigest
  have htyped := hfree (hmem _ (by simp [Request.strings]))
    (hmem' _ (by simp [Request.strings])) hdigest
  obtain ⟨hdomain, hstruct⟩ := typedDataPreimage_inj htyped
  obtain ⟨hchain, hself⟩ := domainPreimage_inj (hfree (hmem _ (by simp [Request.strings]))
    (hmem' _ (by simp [Request.strings])) hdomain)
  have hmandate : q.mandate = q'.mandate := abiEncodeMandate_injective
    (hfree (hmem _ (by simp [Request.strings])) (hmem' _ (by simp [Request.strings])) hstruct)
  have hext : keccak256 q.extensions = keccak256 q'.extensions := by
    rw [h.extensionsHash, h'.extensionsHash, hmandate]
  refine ⟨hself, hchain, hmandate, hfree (hmem _ (by simp [Request.strings]))
    (hmem' _ (by simp [Request.strings])) hext, ?_⟩
  intro hne
  have hactions : hashActions q.actions = hashActions q'.actions := by
    rw [← h.actionsDigest_eq, ← h'.actionsDigest_eq, ← h.payload.resolve_left hne,
      ← h'.payload.resolve_left (hmandate ▸ hne), hmandate]
  exact abiEncodeActions_inj h.length_actions_lt h'.length_actions_lt
    (hfree (hmem _ (by simp [Request.strings])) (hmem' _ (by simp [Request.strings])) hactions)

/-- Other accepted proofs are as valid. -/
theorem MandateValid.of_acceptsProofs {adapterProofs : List (List Bytes32)}
    (h : MandateValid P q.env q.mandate q.actions q.signature q.adapterProofs q.extensions w v)
    (haccepts : q.AcceptsProofs P adapterProofs) :
    MandateValid P q.env q.mandate q.actions q.signature adapterProofs q.extensions w v := by
  refine ⟨⟨h.fields.deadline, h.fields.executor, h.fields.bounded, h.fields.epoch,
    h.fields.drawdown, h.fields.cumulative, h.fields.drawdown_le, h.fields.root,
    h.fields.nonempty, h.fields.actions, haccepts.1, h.fields.extensions⟩, h.extensionsHash,
    h.not_revoked, h.signed, h.threshold, h.unused, h.payload, ?_, h.authority_eq,
    h.mandateHash_eq, h.actionsDigest_eq⟩
  have hall := h.allowlists
  rw [validateAllowlists] at hall ⊢
  rw [haccepts.2]
  obtain ⟨_, _, hrest⟩ := (bind_ok _ _ _).mp hall
  exact hrest

end Valid

/-- The end of an execution does not depend on the arguments that are recorded in the log. -/
theorem postExecution_of_call {env : Env} {call : Call} {mandate : Mandate}
    {preAssets postAssets : Uint256} {v : Validated} {s t : World}
    (h : postExecution env call mandate preAssets v s = .ok (postAssets, t)) (call' : Call) :
    ∃ log, postExecution env call' mandate preAssets v s
        = .ok (postAssets, { t with log := log })
      ∧ log.map Logged.event = t.log.map Logged.event := by
  simp only [postExecution, bind_ok, exists_unit_ok, pure_ok, Prod.mk.injEq] at h ⊢
  obtain ⟨hsingle, habs, mark, hcum, rfl, rfl⟩ := h
  refine ⟨_, ⟨hsingle, habs, mark, hcum, rfl, rfl⟩, ?_⟩
  show (s.log ++ [_]).map Logged.event = (s.log ++ [_]).map Logged.event
  rw [List.map_append, List.map_append]
  rfl

/-- **Proofs leave no mark.**  With other accepted proofs a successful execution succeeds as
    well, and leaves the same. -/
theorem execute_of_acceptsProofs {P : Platform} {q : Request}
    {adapterProofs : List (List Bytes32)} (haccepts : q.AcceptsProofs P adapterProofs)
    {outs : Nat → Msg → VaultScript} {w t : World} {r : Value}
    (h : (vaultMachine P).invoke q.invocation outs w = .ok (r, t)) :
    ∃ log, (vaultMachine P).invoke { q with adapterProofs := adapterProofs }.invocation outs w
        = .ok (r, { t with log := log })
      ∧ log.map Logged.event = t.log.map Logged.event := by
  obtain ⟨hent, v, s, post, s', hvalid, hact, hpost, rfl, rfl⟩ := execute_invoke_parts h
  obtain ⟨log, hpost', hlog⟩ := postExecution_of_call hpost
    (.execute q.mandate q.actions q.signature adapterProofs q.extensions)
  refine ⟨log, ?_, hlog⟩
  show (execute P q.env q.mandate q.actions q.signature adapterProofs q.extensions w).exec
    ((vaultMachine P).oracle outs) 0 = _
  rw [execute_of_valid hent (hvalid.of_acceptsProofs haccepts), executeRest]
  refine (Prog.exec_bind_ok ..).mpr ⟨(), s, hact, (Prog.exec_bind_ok ..).mpr
    ⟨post, { s' with log := log }, ?_, rfl⟩⟩
  rw [Code.exec_inline]
  exact hpost'

/-- **What the authority signed is what runs.**  Suppose a signature is accepted only for a
    digest that its authority approved.  In every successful `execute`:

    * the vault's authority approved the digest, and the calls made are the actions, in order;
    * the caller is the mandate's executor, or the mandate commits to a payload, and as far as
      the hash does not collide these actions are the only ones with that digest;
    * with any other accepted proofs it goes the same.

    Any two successful executions, on whatever vaults and chains, whose digests are equal,
    agree on vault, chain, mandate and extensions, and on the actions if the mandate commits
    to them, provided that the strings hashed for the two do not collide. -/
theorem signed_is_executed {P : Platform} (Approved : Address → Bytes32 → Prop)
    (hscheme : ∀ env authority digest signature,
      signatureValid P env authority digest signature = true → Approved authority digest) :
    (∀ (q : Request) outs w r t, (vaultMachine P).invoke q.invocation outs w = .ok (r, t) →
      Approved w.authority (q.digest P w)
      ∧ ((vaultMachine P).handovers q.invocation outs w).map (fun x => x.2.1)
        = q.actions.map Action.msg
      ∧ ((q.mandate.executor ≠ 0 ∧ q.env.sender = q.mandate.executor)
        ∨ (q.mandate.payloadDigest ≠ 0 ∧ hashActions q.actions = q.mandate.payloadDigest
          ∧ ∀ actions : List Action, actions.length < 2 ^ 256 →
            CollisionFree keccak256 {abiEncodeActions q.actions, abiEncodeActions actions} →
            hashActions actions = q.mandate.payloadDigest → actions = q.actions))
      ∧ ∀ adapterProofs, q.AcceptsProofs P adapterProofs → ∃ t',
        (vaultMachine P).invoke { q with adapterProofs := adapterProofs }.invocation outs w
          = .ok (r, t')
        ∧ t' = { t with log := t'.log } ∧ t'.log.map Logged.event = t.log.map Logged.event)
    ∧ ∀ (q q' : Request) outs outs' w w' r r' t t',
      (vaultMachine P).invoke q.invocation outs w = .ok (r, t) →
      (vaultMachine P).invoke q'.invocation outs' w' = .ok (r', t') →
      CollisionFree keccak256 {s | s ∈ q.strings w ++ q'.strings w'} →
      q.digest P w = q'.digest P w' →
      w.self = w'.self ∧ q.env.chainId = q'.env.chainId ∧ q.mandate = q'.mandate
      ∧ q.extensions = q'.extensions ∧ (q.mandate.payloadDigest ≠ 0 → q.actions = q'.actions) := by
  constructor
  · intro q outs w r t h
    obtain ⟨_, v, s, mark, hvalid, hact, _⟩ := execute_invoke_ok h
    refine ⟨?_, ?_, ?_, ?_⟩
    · have := hscheme _ _ _ _ hvalid.signed
      rwa [hvalid.authority_eq, hvalid.mandateHash_eq] at this
    · rw [Request.invocation, execute_invoke_handovers h]
      exact executeActionsFrom_messages _ q.actions 0 0 _ s hvalid.no_value hact
    · by_cases hexec : q.mandate.executor = 0
      · have hpayload := hvalid.fields.bounded.resolve_left (not_not.mpr hexec)
        have hcommits : q.mandate.payloadDigest = hashActions q.actions :=
          (hvalid.payload.resolve_left hpayload).trans hvalid.actionsDigest_eq
        refine Or.inr ⟨hpayload, hcommits.symm, fun actions hlen hfree heq => ?_⟩
        exact abiEncodeActions_inj hlen hvalid.length_actions_lt
          (hfree (by simp) (by simp) (heq.trans hcommits))
      · exact Or.inl ⟨hexec, hvalid.fields.executor.resolve_left hexec⟩
    · intro adapterProofs haccepts
      obtain ⟨log, h', hlog⟩ := execute_of_acceptsProofs haccepts h
      exact ⟨_, h', rfl, hlog⟩
  · intro q q' outs outs' w w' r r' t t' h h' hfree hdigest
    obtain ⟨_, v, _, _, hvalid, _⟩ := execute_invoke_ok h
    obtain ⟨_, v', _, _, hvalid', _⟩ := execute_invoke_ok h'
    exact Request.eq_of_digest hvalid hvalid' hfree hdigest

namespace Small

/-- The executor's call under a mandate. -/
def request (mandate : Mandate) : Request where
  env := env executor executor_ne_zero
  mandate := mandate
  actions := actions
  signature := []
  adapterProofs := [[]]
  extensions := []

end Small

/-- One mandate, executed in two possible states of a vault: the digests are equal. -/
theorem signed_is_executed_small :
    ∃ t t', (vaultMachine .plain).invoke (Small.request (Small.mandate 1 0 0)).invocation
        (fun _ _ => .done) (Small.deployed 100) = .ok (.assets 100 100, t)
      ∧ (vaultMachine .plain).invoke (Small.request (Small.mandate 1 0 0)).invocation
        (fun _ _ => .done) (Small.deployed 200) = .ok (.assets 200 200, t')
      ∧ (Small.deployed 100).self = (Small.deployed 200).self := by
  obtain ⟨r, t, h, htest⟩ := (Machine.invokesTo_iff (vaultMachine .plain)
    (Small.request (Small.mandate 1 0 0)).invocation (fun _ _ => .done) (Small.deployed 100)
    (fun r _ => r = .assets 100 100)).mp (by decide +kernel)
  obtain ⟨r', t', h', htest'⟩ := (Machine.invokesTo_iff (vaultMachine .plain)
    (Small.request (Small.mandate 1 0 0)).invocation (fun _ _ => .done) (Small.deployed 200)
    (fun r _ => r = .assets 200 200)).mp (by decide +kernel)
  obtain rfl : r = .assets 100 100 := by simpa using htest
  obtain rfl : r' = .assets 200 200 := by simpa using htest'
  have hfree : CollisionFree keccak256 {s | s ∈ (Small.request (Small.mandate 1 0 0)).strings
      (Small.deployed 100) ++ (Small.request (Small.mandate 1 0 0)).strings
      (Small.deployed 200)} := by
    refine .of_nodup (l := (Small.request (Small.mandate 1 0 0)).strings
      (Small.deployed 100)) (by decide +kernel) fun s hs => ?_
    rcases List.mem_append.mp hs with hs | hs
    · exact hs
    · exact hs
  obtain ⟨_, hpair⟩ := signed_is_executed (P := .plain)
    (fun authority digest => ∃ env signature,
      signatureValid .plain env authority digest signature = true)
    fun env _ _ signature h => ⟨env, signature, h⟩
  exact ⟨t, t', h, h', (hpair _ _ _ _ _ _ _ _ _ _ h h' hfree rfl).1⟩

end Vault

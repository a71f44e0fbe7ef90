import UnichainBuilder.Lib.Runs
import UnichainBuilder.Flashtestations.Prologue

/-! # The nonces of the permits

Registry and policy count the permits of an address each for itself, and take
a permit only with the count they are at. The executor asks the registry for
both permits. Of blocks in a row, here and elsewhere, the nonces are those of
the contracts as long as the policy happens to be where the registry is. -/
namespace UnichainBuilder.Flashtestations.PermitNonces
open UnichainBuilder.Lib.Bytes UnichainBuilder.Lib.RustStd UnichainBuilder.Lib.Runs
open UnichainBuilder.Block UnichainBuilder.Publish UnichainBuilder.Flashtestations.Contracts
open UnichainBuilder.Flashtestations.Execution UnichainBuilder.Flashtestations.Executor
open UnichainBuilder.Flashtestations.Permit UnichainBuilder.Flashtestations.Prologue

/-- The counters of the two contracts, and the view that the registry gives
of its own. -/
structure NonceCounters {σ : Type} (b : Backend σ) (manager : FlashtestationsManager) where
  registryNonces : σ → Address → U256
  policyNonces : σ → Address → U256
  distinct : manager.registryAddress ≠ manager.builderPolicyAddress
  nonces_eq : ∀ {s s' : σ} {request signature signer owner logs output},
    request.toAddress = manager.registryAddress → request.input = .permit (.nonces owner) →
    b.execute s (.signed request signature signer) = .ok (.success logs output, s') →
    output = toBytes (registryNonces s owner)

section
variable {σ : Type} {b : Backend σ} {manager : FlashtestationsManager}

/-- The nonce of a permit, and the one that its contract has for the TEE. -/
def permitNonce (c : NonceCounters b manager) (s : σ) : SolCall → Option (U256 × U256)
  | .registry (.permitRegisterTEEService _ _ nonce _ _) =>
    some (nonce, c.registryNonces s (b.address manager.teeSigner))
  | .policy (.permitVerifyBlockBuilderProof _ _ nonce _) =>
    some (nonce, c.policyNonces s (b.address manager.teeSigner))
  | _ => none

/-- A permit carries the nonce that its contract has for the TEE in the state
that it is executed in. -/
def NonceCurrent (c : NonceCounters b manager) (s : σ) (tx : Transaction) : Prop :=
  ∀ nonces ∈ tx.call.bind (permitNonce c s), nonces.1 = nonces.2

instance (c : NonceCounters b manager) (s : σ) (tx : Transaction) :
    Decidable (NonceCurrent c s tx) :=
  Option.decidableForallMem (tx.call.bind (permitNonce c s))

/-- Both contracts are at the same nonce for the TEE. -/
def CountersAgree (c : NonceCounters b manager) (s : σ) : Prop :=
  c.registryNonces s (b.address manager.teeSigner) = c.policyNonces s (b.address manager.teeSigner)

/-- Each transaction with the state that it is executed in. -/
def replay (b : Backend σ) : σ → List Transaction → List (σ × Transaction)
  | _, [] => []
  | s, tx :: txs =>
    (s, tx) :: match b.execute s tx with
      | .ok (_, s') => replay b s' txs
      | .error _ => []

theorem replay_cons {s s' : σ} {tx : Transaction} {txs : List Transaction}
    {result : ExecutionResult} (h : b.execute s tx = .ok (result, s')) :
    replay b s (tx :: txs) = (s, tx) :: replay b s' txs := by
  rw [replay, h]

/-- What the step added to a payload, with the states it was executed in. -/
def addedAt (b : Backend σ) (payload p : Checkpoint σ) : List (σ × Transaction) :=
  replay b payload.state (p.allTransactions.drop payload.allTransactions.length)

/-- A call that is simulated and returns. -/
theorem simulateContractCall_returns {executor : FlashteststationsExecutor}
    {payload : Checkpoint σ} {ctx : BlockContext} {contract : Address} {call : SolCall}
    {word : B256} (h : executor.simulateContractCall b payload ctx contract call = .ok word) :
    ∃ request signature signer logs output state, request.toAddress = contract ∧
      request.input = call ∧
      b.execute payload.state (.signed request signature signer) =
        .ok (.success logs output, state) ∧
      abiDecodeReturns output = some word := by
  simp only [FlashteststationsExecutor.simulateContractCall, bind_eq_ok,
    Backend.buildSigned_eq_ok, Backend.apply_eq_ok, context_eq_ok] at h
  obtain ⟨nonce, _, _, ⟨signature, _, rfl⟩, _, ⟨result, state, hexecute, rfl⟩, results, hresults,
    first, hfirst, h⟩ := h
  rw [Checkpoint.result_push] at hresults
  cases hresults
  cases hfirst
  cases result with
  | success logs output => exact ⟨_, _, _, _, _, _, rfl, rfl, hexecute, context_eq_ok.mp h⟩
  | revert output => cases h
  | halt reason => cases h

variable (c : NonceCounters b manager) {payload p : Checkpoint σ} {ctx : BlockContext}

/-- Either permit gets the nonce of the registry. -/
theorem nonce_of_granted {kind : PermitKind} (g : Granted b ⟨manager⟩ kind ctx payload p) :
    g.permit.nonce = c.registryNonces payload.state (b.address manager.teeSigner) := by
  obtain ⟨request, _, _, logs, output, _, hto, hinput, hexecute, hdecode⟩ :=
    simulateContractCall_returns (signPermit_eq_ok.mp g.sign_eq).1
  rw [c.nonces_eq hto hinput hexecute, abiDecodeReturns_toBytes] at hdecode
  exact (Option.some.inj hdecode).symm

/-- A registration is submitted with the nonce of its contract. -/
theorem current_of_registration {attestation : Bytes}
    (g : Granted b ⟨manager⟩ (registration ⟨manager⟩ ctx attestation) ctx payload p) :
    NonceCurrent c payload.state g.submission.tx := by
  intro nonces hnonces
  cases hnonces
  exact nonce_of_granted c g

/-- A block proof is, where the counters agree. -/
theorem current_iff_agree_of_proof
    (g : Granted b ⟨manager⟩ (blockProof b ⟨manager⟩ payload ctx) ctx payload p) :
    NonceCurrent c payload.state g.submission.tx ↔ CountersAgree c payload.state := by
  have hnonce := nonce_of_granted c g
  constructor
  · intro h
    exact hnonce.symm.trans (h _ rfl)
  · intro h nonces hnonces
    cases hnonces
    exact hnonce.trans h

/-- A registration that its contract takes counts there and nowhere else. -/
def CountsRegistrations (c : NonceCounters b manager) : Prop :=
  ∀ {s s' : σ} {request signature signer rawQuote extended nonce deadline permitSignature logs
      output},
    request.toAddress = manager.registryAddress →
    request.input = .registry (.permitRegisterTEEService rawQuote extended nonce deadline
      permitSignature) →
    b.execute s (.signed request signature signer) = .ok (.success logs output, s') →
    c.registryNonces s' (b.address manager.teeSigner) =
        c.registryNonces s (b.address manager.teeSigner) + 1 ∧
      c.policyNonces s' (b.address manager.teeSigner) =
        c.policyNonces s (b.address manager.teeSigner)

/-- Behind a registration that was taken, the counters agree if and only if
the policy was one ahead before it. -/
theorem agree_iff_policy_ahead (counts : CountsRegistrations c) {attestation : Bytes}
    {logs : List Log} {output : Bytes}
    (reg : Granted b ⟨manager⟩ (registration ⟨manager⟩ ctx attestation) ctx payload p)
    (taken : reg.submission.result = .success logs output) :
    CountersAgree c p.state ↔
      c.policyNonces payload.state (b.address manager.teeSigner) =
        c.registryNonces payload.state (b.address manager.teeSigner) + 1 := by
  have hexecute := reg.submission.execute_tx
  rw [taken] at hexecute
  obtain ⟨hregistry, hpolicy⟩ := counts rfl rfl hexecute
  rw [CountersAgree, hregistry, hpolicy]
  exact eq_comm

/-- The counters agree in front of every block proof: where the registration
left the chain, if the block proof is not given up. -/
def AgreeBeforeProof (c : NonceCounters b manager) (attestation : Option Bytes)
    (payload : Checkpoint σ) (ctx : BlockContext) : Prop :=
  ∀ rawQuote ∈ attestation, manager.enableBlockProofs = true → ∀ p₁ p,
    FlashteststationsExecutor.addPermitTransaction b ⟨manager⟩ payload ctx rawQuote = .ok p₁ →
    FlashteststationsExecutor.addBlockProofTransaction b ⟨manager⟩ p₁ ctx = .ok p →
    CountersAgree c p₁.state

theorem agreeBeforeProof_of_fails {attestation : Option Bytes}
    (h : FlashtestationsPrologue.Fails b ⟨some manager, attestation⟩ payload ctx) :
    AgreeBeforeProof c attestation payload ctx := by
  intro rawQuote hattestation enabled p₁ p hreg hproof
  obtain ⟨report, hreport⟩ := h manager rawQuote rfl hattestation
  have hadd : FlashteststationsExecutor.addTransactions b ⟨manager⟩ payload ctx rawQuote =
      .ok p := by
    rw [FlashteststationsExecutor.addTransactions, hreg, enabled]
    exact hproof
  rw [hadd] at hreport
  cases hreport

theorem agreeBeforeProof_of_granted {attestation : Bytes} {p₁ : Checkpoint σ}
    (enabled : manager.enableBlockProofs = true)
    (reg : Granted b ⟨manager⟩ (registration ⟨manager⟩ ctx attestation) ctx payload p₁)
    (proof : Granted b ⟨manager⟩ (blockProof b ⟨manager⟩ p₁ ctx) ctx p₁ p) :
    AgreeBeforeProof c (some attestation) payload ctx ↔ CountersAgree c p₁.state := by
  have hreg : FlashteststationsExecutor.addPermitTransaction b ⟨manager⟩ payload ctx attestation =
      .ok p₁ := (addPermitTransaction_eq ..).trans (addPermit_eq_ok.mpr ⟨reg⟩)
  have hproof : FlashteststationsExecutor.addBlockProofTransaction b ⟨manager⟩ p₁ ctx = .ok p :=
    (addBlockProofTransaction_eq ..).trans (addPermit_eq_ok.mpr ⟨proof⟩)
  constructor
  · intro h
    exact h attestation rfl enabled p₁ p hreg hproof
  · rintro h rawQuote hattestation - p₁' p' hreg' -
    cases hattestation
    obtain rfl : p₁ = p₁' := Except.ok.inj (hreg.symm.trans hreg')
    exact h

/-- What the step adds is current if and only if the counters agree in front
of the proof. -/
theorem added_current_iff (attestation : Option Bytes) (payload : Checkpoint σ)
    (ctx : BlockContext) :
    (∀ e ∈ addedAt b payload
        (FlashtestationsPrologue.step b ⟨some manager, attestation⟩ payload ctx).payload,
      NonceCurrent c e.1 e.2) ↔ AgreeBeforeProof c attestation payload ctx := by
  rcases FlashtestationsPrologue.fails_or_adds ⟨some manager, attestation⟩ b payload ctx with
    hfails | ⟨_, rawQuote, p, hmanager, hattestation, hstep, hadds⟩
  · refine iff_of_true ?_ (agreeBeforeProof_of_fails c hfails)
    simp [FlashtestationsPrologue.step_of_fails hfails, addedAt, replay]
  · cases hmanager
    cases hattestation
    rw [hstep]
    cases hadds with
    | registered disabled reg =>
      have hadded : addedAt b payload p = [(payload.state, reg.submission.tx)] := by
        rw [addedAt, reg.submission.transactions_eq, List.drop_left,
          replay_cons reg.submission.execute_tx]
        rfl
      refine iff_of_true ?_ ?_
      · simp [hadded, current_of_registration c reg]
      · intro _ _ enabled
        exact absurd enabled (Bool.eq_false_iff.mp disabled)
    | @proved p₁ _ enabled reg proof =>
      have hadded : addedAt b payload p =
          [(payload.state, reg.submission.tx), (p₁.state, proof.submission.tx)] := by
        rw [addedAt, proof.submission.transactions_eq, reg.submission.transactions_eq,
          List.append_assoc, List.drop_left, List.singleton_append,
          replay_cons reg.submission.execute_tx, replay_cons proof.submission.execute_tx]
        rfl
      rw [agreeBeforeProof_of_granted c enabled reg proof, ← current_iff_agree_of_proof c proof]
      simp [hadded, current_of_registration c reg]

/-! ## Blocks in a row -/

/-- A block on top of the chain: one that is built here, or any other. -/
inductive ChainBlock
  | built (ctx : BlockContext) (attestation : Option Bytes) (sequencer loop : List Transaction)
  | foreign (txs : List Transaction)

/-- The payload that the flashtestations prologue is given. -/
def enterPrologue (b : Backend σ) (s : σ) (sequencer : List Transaction) :
    Except Report (Checkpoint σ) :=
  b.applyAll ⟨s, [], s⟩ sequencer

/-- The payload that it returns. -/
def leavePrologue (b : Backend σ) (manager : FlashtestationsManager) (attestation : Option Bytes)
    (payload : Checkpoint σ) (ctx : BlockContext) : Checkpoint σ :=
  (FlashtestationsPrologue.step b ⟨some manager, attestation⟩ payload ctx).payload

/-- The chain after a block; `none` if a transaction cannot be applied. -/
def extendChain (b : Backend σ) (manager : FlashtestationsManager) (s : σ) :
    ChainBlock → Option σ
  | .built ctx attestation sequencer loop =>
    match enterPrologue b s sequencer with
    | .ok payload =>
      match b.applyAll (leavePrologue b manager attestation payload ctx) loop with
      | .ok p => some p.state
      | .error _ => none
    | .error _ => none
  | .foreign txs =>
    match b.applyAll ⟨s, [], s⟩ txs with
    | .ok p => some p.state
    | .error _ => none

/-- Every permit that the prologue adds to a block built here is current. -/
def AddsCurrent (c : NonceCounters b manager) (s : σ) : ChainBlock → Prop
  | .built ctx attestation sequencer _ => ∀ payload, enterPrologue b s sequencer = .ok payload →
    ∀ e ∈ addedAt b payload (leavePrologue b manager attestation payload ctx),
      NonceCurrent c e.1 e.2
  | .foreign _ => True

/-- In every block built here the counters agree in front of the proof. -/
def ProvesInStep (c : NonceCounters b manager) (s : σ) : ChainBlock → Prop
  | .built ctx attestation sequencer _ => ∀ payload, enterPrologue b s sequencer = .ok payload →
    AgreeBeforeProof c attestation payload ctx
  | .foreign _ => True

theorem addsCurrent_iff (s : σ) (block : ChainBlock) :
    AddsCurrent c s block ↔ ProvesInStep c s block := by
  cases block with
  | built ctx attestation sequencer loop =>
    exact forall₂_congr fun payload _ => added_current_iff c attestation payload ctx
  | foreign txs => exact Iff.rfl

/-- **When the permits carry the nonces of their contracts.** Over any blocks
in a row, from any chain: every permit that is added carries the nonce that
its contract has for the TEE, if and only if the two contracts are at the same
nonce whenever the executor turns to a block proof that it submits. -/
theorem nonces_current_iff (blocks : List ChainBlock) (s : σ) :
    Along (extendChain b manager) (AddsCurrent c) s blocks ↔
      Along (extendChain b manager) (ProvesInStep c) s blocks :=
  along_congr (addsCurrent_iff c) blocks s

end

/-! ## The devnet -/

def devnetCounters : NonceCounters devnet (devnetExecutor true).manager where
  registryNonces s _ := s.registry
  policyNonces s _ := s.policy
  distinct := by decide
  nonces_eq := by
    rintro s s' request signature signer owner logs output hto hinput h
    have hcall : s.call request.toAddress request.input = (.success logs output, s') :=
      Except.ok.inj h
    rw [hto, hinput] at hcall
    cases hcall
    rfl

theorem nonces_current_iff_devnet :
    Along (extendChain devnet (devnetExecutor true).manager) (AddsCurrent devnetCounters) ⟨1, 0⟩
        [.built default (some []) [] [], .foreign []] ↔
      Along (extendChain devnet (devnetExecutor true).manager) (ProvesInStep devnetCounters) ⟨1, 0⟩
        [.built default (some []) [] [], .foreign []] :=
  nonces_current_iff devnetCounters _ _

/-- The TEE has registered before, but no block was proved: the proof carries
the 1 of the registry where the policy expects 0. -/
theorem proof_with_registry_nonce :
    ¬ Along (extendChain devnet (devnetExecutor true).manager) (AddsCurrent devnetCounters) ⟨1, 0⟩
        [.built default (some []) [] []] := by
  intro h
  have hadded := h.1 (Counters.payload ⟨1, 0⟩) rfl
  revert hadded
  decide +kernel

end UnichainBuilder.Flashtestations.PermitNonces

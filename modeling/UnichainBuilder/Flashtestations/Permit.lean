import UnichainBuilder.Flashtestations.Executor

/-! # The two permits

The registration and the block proof go through the same stages: the nonce,
the struct hash, the digest, the signature, the submission and the check of
the event. They differ in the contract, the calls and the event (`PermitKind`). -/
namespace UnichainBuilder.Flashtestations.Permit
open UnichainBuilder.Lib.RustStd UnichainBuilder.Block UnichainBuilder.Flashtestations.Contracts
open UnichainBuilder.Flashtestations.Execution UnichainBuilder.Flashtestations.Executor

structure PermitKind where
  contract : Address
  structHashCall (nonce : U256) : SolCall
  typedDataCall (structHash : B256) : SolCall
  permitCall (nonce : U256) (signature : Bytes) : SolCall
  event : B256

section
variable {σ : Type} (b : Backend σ) (executor : FlashteststationsExecutor)

def registration (ctx : BlockContext) (attestation : Bytes) : PermitKind where
  contract := executor.manager.registryAddress
  structHashCall nonce := .registry (.computeStructHash attestation
    executor.manager.extraRegistrationData nonce (FlashteststationsExecutor.deadline ctx))
  typedDataCall structHash := .registry (.hashTypedDataV4 structHash)
  permitCall nonce signature := .registry (.permitRegisterTEEService attestation
    executor.manager.extraRegistrationData nonce (FlashteststationsExecutor.deadline ctx) signature)
  event := TEEServiceRegistered.signatureHash

def blockProof (payload : Checkpoint σ) (ctx : BlockContext) : PermitKind where
  contract := executor.manager.builderPolicyAddress
  structHashCall nonce := .policy (.computeStructHash executor.manager.builderProofVersion
    (FlashteststationsExecutor.computeBlockContentHash b payload ctx) nonce)
  typedDataCall structHash := .policy (.getHashedTypeDataV4 structHash)
  permitCall nonce signature := .policy (.permitVerifyBlockBuilderProof
    executor.manager.builderProofVersion
    (FlashteststationsExecutor.computeBlockContentHash b payload ctx) nonce signature)
  event := BlockBuilderProofVerified.signatureHash

/-- What the TEE key signs for a permit, and the signature. -/
structure SignedPermit where
  nonce : U256
  structHash : B256
  digest : B256
  signature : Signature
  deriving DecidableEq, Repr

/-- The call that is submitted. -/
def SignedPermit.call (permit : SignedPermit) (kind : PermitKind) : SolCall :=
  kind.permitCall permit.nonce permit.signature.asBytes

def signPermit (kind : PermitKind) (payload : Checkpoint σ) (ctx : BlockContext) :
    Except Report SignedPermit := do
  let nonce ← executor.fetchPermitNonce b payload ctx
  let structHash ← executor.simulateContractCall b payload ctx kind.contract
    (kind.structHashCall nonce)
  let digest ← executor.simulateContractCall b payload ctx kind.contract
    (kind.typedDataCall structHash)
  let signature ← b.signMessage executor.manager.teeSigner digest
  return { nonce, structHash, digest, signature }

def submitPermit (kind : PermitKind) (payload : Checkpoint σ) (ctx : BlockContext)
    (permit : SignedPermit) : Except Report (Checkpoint σ) := do
  let payload ← executor.executeTransaction b payload ctx kind.contract (permit.call kind)
  validateEventLogged payload kind.event
  return payload

def addPermit (kind : PermitKind) (payload : Checkpoint σ) (ctx : BlockContext) :
    Except Report (Checkpoint σ) := do
  let permit ← signPermit b executor kind payload ctx
  submitPermit b executor kind payload ctx permit

theorem addPermitTransaction_eq (payload : Checkpoint σ) (ctx : BlockContext)
    (attestation : Bytes) :
    executor.addPermitTransaction b payload ctx attestation =
      addPermit b executor (registration executor ctx attestation) payload ctx := by
  simp only [addPermit, signPermit, bind_assoc, pure_bind]
  rfl

theorem addBlockProofTransaction_eq (payload : Checkpoint σ) (ctx : BlockContext) :
    executor.addBlockProofTransaction b payload ctx =
      addPermit b executor (blockProof b executor payload ctx) payload ctx := by
  simp only [addPermit, signPermit, bind_assoc, pure_bind]
  rfl

/-! ## What a stage did -/

/-- A call that the builder key submitted with its next nonce, and the payload
that it was added to. -/
structure Submission (ctx : BlockContext) (contract : Address) (call : SolCall)
    (payload p : Checkpoint σ) where
  nonce : UInt64
  signature : Signature
  result : ExecutionResult
  state : σ
  nonce_eq : b.nonceOf payload (b.address executor.manager.builderKey) = .ok nonce
  signature_eq : b.signTransaction executor.manager.builderKey
    (executor.builderRequest b ctx contract call nonce) = .ok signature
  execute_eq : b.execute payload.state (.signed (executor.builderRequest b ctx contract call nonce)
    signature (b.address executor.manager.builderKey)) = .ok (result, state)
  payload_eq : p = payload.push (.signed (executor.builderRequest b ctx contract call nonce)
    signature (b.address executor.manager.builderKey)) result state

/-- What the check of the event asks: nothing of a transaction that failed. -/
def PassesCheck (event : B256) (result : ExecutionResult) : Prop :=
  ∀ logs output, result = .success logs output → event ∈ logs.flatMap Log.topics

/-- A permit that went through all the stages. -/
structure Granted (kind : PermitKind) (ctx : BlockContext) (payload p : Checkpoint σ) where
  permit : SignedPermit
  sign_eq : signPermit b executor kind payload ctx = .ok permit
  submission : Submission b executor ctx kind.contract (permit.call kind) payload p
  passesCheck : PassesCheck kind.event submission.result

/-- What `addTransactions` returns when it does. -/
inductive Adds (ctx : BlockContext) (attestation : Bytes) (payload : Checkpoint σ) :
    Checkpoint σ → Prop
  | registered {p : Checkpoint σ} (disabled : executor.manager.enableBlockProofs = false)
      (registration : Granted b executor (registration executor ctx attestation) ctx payload p) :
      Adds ctx attestation payload p
  | proved {p₁ p : Checkpoint σ} (enabled : executor.manager.enableBlockProofs = true)
      (registration : Granted b executor (registration executor ctx attestation) ctx payload p₁)
      (proof : Granted b executor (blockProof b executor p₁ ctx) ctx p₁ p) :
      Adds ctx attestation payload p

end

section
variable {σ : Type} {b : Backend σ} {executor : FlashteststationsExecutor} {ctx : BlockContext}
variable {payload p : Checkpoint σ}

namespace Submission
variable {contract : Address} {call : SolCall}

def tx (s : Submission b executor ctx contract call payload p) : Transaction :=
  .signed (executor.builderRequest b ctx contract call s.nonce) s.signature
    (b.address executor.manager.builderKey)

theorem execute_tx (s : Submission b executor ctx contract call payload p) :
    b.execute payload.state s.tx = .ok (s.result, p.state) := by
  have hstate : p.state = s.state := congrArg Checkpoint.state s.payload_eq
  rw [hstate]
  exact s.execute_eq

theorem executed_eq (s : Submission b executor ctx contract call payload p) :
    p.executed = payload.executed ++ [(s.tx, s.result)] :=
  (congrArg Checkpoint.executed s.payload_eq).trans (Checkpoint.executed_push _ _ _ _)

theorem transactions_eq (s : Submission b executor ctx contract call payload p) :
    p.allTransactions = payload.allTransactions ++ [s.tx] :=
  (congrArg Checkpoint.allTransactions s.payload_eq).trans (Checkpoint.allTransactions_push _ _ _ _)

theorem ownTransactions_eq (s : Submission b executor ctx contract call payload p) :
    p.ownTransactions = [s.tx] :=
  (congrArg Checkpoint.ownTransactions s.payload_eq).trans
    (Checkpoint.ownTransactions_push _ _ _ _)

theorem nonceOf_eq (s : Submission b executor ctx contract call payload p) :
    b.nonceOf p (b.address executor.manager.builderKey) = .ok (s.nonce + 1) :=
  (congrArg (b.nonceOf · _) s.payload_eq).trans (Backend.nonceOf_push s.nonce_eq rfl _ _)

end Submission

theorem passesCheck_success {event : B256} {logs : List Log} {output : Bytes} :
    PassesCheck event (.success logs output) ↔ event ∈ logs.flatMap Log.topics := by
  constructor
  · intro h
    exact h logs output rfl
  · intro h _ _ heq
    cases heq
    exact h

theorem validateEventLogged_push {tx : Transaction} {result : ExecutionResult} {state : σ}
    {event : B256} :
    validateEventLogged (payload.push tx result state) event = .ok () ↔
      PassesCheck event result := by
  simp only [validateEventLogged, Checkpoint.result_push, context_eq_ok, bind_eq_ok,
    Option.some.injEq, exists_eq_left', List.head?_cons]
  cases result with
  | success logs output =>
    rw [passesCheck_success]
    simp only [List.contains_iff_mem]
    split
    · exact iff_of_true rfl ‹_›
    · exact iff_of_false (by simp [throw, throwThe, MonadExceptOf.throw]) ‹_›
  | revert output => simp [PassesCheck, pure, Except.pure]
  | halt reason => simp [PassesCheck, pure, Except.pure]

theorem executeTransaction_eq_ok {contract : Address} {call : SolCall} :
    executor.executeTransaction b payload ctx contract call = .ok p ↔
      Nonempty (Submission b executor ctx contract call payload p) := by
  simp only [FlashteststationsExecutor.executeTransaction, bind_eq_ok, mapError_eq_ok,
    Backend.buildSigned_eq_ok, Backend.apply_eq_ok]
  constructor
  · rintro ⟨nonce, hnonce, _, ⟨signature, hsignature, rfl⟩, result, state, hexecute, rfl⟩
    exact ⟨⟨nonce, signature, result, state, hnonce, hsignature, hexecute, rfl⟩⟩
  · rintro ⟨s⟩
    exact ⟨_, s.nonce_eq, _, ⟨_, s.signature_eq, rfl⟩, _, _, s.execute_eq, s.payload_eq⟩

theorem signPermit_eq_ok {kind : PermitKind} {permit : SignedPermit} :
    signPermit b executor kind payload ctx = .ok permit ↔
      executor.fetchPermitNonce b payload ctx = .ok permit.nonce ∧
      executor.simulateContractCall b payload ctx kind.contract
        (kind.structHashCall permit.nonce) = .ok permit.structHash ∧
      executor.simulateContractCall b payload ctx kind.contract
        (kind.typedDataCall permit.structHash) = .ok permit.digest ∧
      b.signMessage executor.manager.teeSigner permit.digest = .ok permit.signature := by
  simp only [signPermit, bind_eq_ok, pure_eq_ok]
  constructor
  · rintro ⟨nonce, hnonce, structHash, hstruct, digest, hdigest, signature, hsignature, rfl⟩
    exact ⟨hnonce, hstruct, hdigest, hsignature⟩
  · rintro ⟨hnonce, hstruct, hdigest, hsignature⟩
    exact ⟨_, hnonce, _, hstruct, _, hdigest, _, hsignature, rfl⟩

theorem submitPermit_eq_ok {kind : PermitKind} {permit : SignedPermit} :
    submitPermit b executor kind payload ctx permit = .ok p ↔
      ∃ s : Submission b executor ctx kind.contract (permit.call kind) payload p,
        PassesCheck kind.event s.result := by
  simp only [submitPermit, bind_eq_ok, pure_eq_ok, executeTransaction_eq_ok]
  constructor
  · rintro ⟨q, ⟨s⟩, _, hcheck, rfl⟩
    rw [s.payload_eq, validateEventLogged_push] at hcheck
    exact ⟨s, hcheck⟩
  · rintro ⟨s, hcheck⟩
    refine ⟨p, ⟨s⟩, (), ?_, rfl⟩
    rw [s.payload_eq, validateEventLogged_push]
    exact hcheck

theorem addPermit_eq_ok {kind : PermitKind} :
    addPermit b executor kind payload ctx = .ok p ↔
      Nonempty (Granted b executor kind ctx payload p) := by
  simp only [addPermit, bind_eq_ok, submitPermit_eq_ok]
  constructor
  · rintro ⟨permit, hsign, s, hcheck⟩
    exact ⟨⟨permit, hsign, s, hcheck⟩⟩
  · rintro ⟨g⟩
    exact ⟨g.permit, g.sign_eq, g.submission, g.passesCheck⟩

/-- Everything `addTransactions` can return. -/
theorem addTransactions_eq_ok {attestation : Bytes} :
    executor.addTransactions b payload ctx attestation = .ok p ↔
      Adds b executor ctx attestation payload p := by
  simp only [FlashteststationsExecutor.addTransactions, bind_eq_ok, addPermitTransaction_eq,
    addBlockProofTransaction_eq, addPermit_eq_ok]
  constructor
  · rintro ⟨p₁, ⟨registration⟩, h⟩
    cases enabled : executor.manager.enableBlockProofs with
    | false =>
      rw [enabled, if_neg Bool.false_ne_true, pure_eq_ok] at h
      exact .registered enabled (h ▸ registration)
    | true =>
      rw [enabled, if_pos rfl, addPermit_eq_ok] at h
      obtain ⟨proof⟩ := h
      exact .proved enabled registration proof
  · rintro (⟨disabled, registration⟩ | ⟨enabled, registration, proof⟩)
    · exact ⟨p, ⟨registration⟩, by rw [disabled, if_neg Bool.false_ne_true, pure_eq_ok]⟩
    · exact ⟨_, ⟨registration⟩, by rw [enabled, if_pos rfl, addPermit_eq_ok]; exact ⟨proof⟩⟩

end
end UnichainBuilder.Flashtestations.Permit

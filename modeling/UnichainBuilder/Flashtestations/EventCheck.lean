import UnichainBuilder.Flashtestations.Permit

/-! # What the event check lets through

`validate_event_logged` looks at the logs of a transaction that succeeded. One
that reverted or halted has none to look at, and stays in the payload. -/
namespace UnichainBuilder.Flashtestations.EventCheck
open UnichainBuilder.Lib.RustStd UnichainBuilder.Block UnichainBuilder.Flashtestations.Contracts
open UnichainBuilder.Flashtestations.Execution UnichainBuilder.Flashtestations.Executor
open UnichainBuilder.Flashtestations.Permit

/-- The event that a call is submitted for. -/
def expectedEvent : SolCall → Option B256
  | .registry (.permitRegisterTEEService ..) => some TEEServiceRegistered.signatureHash
  | .policy (.permitVerifyBlockBuilderProof ..) => some BlockBuilderProofVerified.signatureHash
  | _ => none

/-- Executed successfully, with the expected event in its logs. -/
def Verified (e : Transaction × ExecutionResult) : Prop :=
  ∃ request signature signer event logs output,
    e = (.signed request signature signer, .success logs output) ∧
      expectedEvent request.input = some event ∧ event ∈ logs.flatMap Log.topics

def Succeeded : ExecutionResult → Prop
  | .success .. => True
  | .revert _ => False
  | .halt _ => False

/-- The permit is signed and submitted, and the chain answers with this result. -/
def Answers {σ : Type} (b : Backend σ) (executor : FlashteststationsExecutor) (ctx : BlockContext)
    (kind : PermitKind) (payload : Checkpoint σ) (result : ExecutionResult) (p : Checkpoint σ) :
    Prop :=
  ∃ permit, signPermit b executor kind payload ctx = .ok permit ∧
    executor.executeTransaction b payload ctx kind.contract (permit.call kind) = .ok p ∧
    p.result = some [result]

/-- The chain answers neither the registration nor, where it is enabled, the
block proof on top of it with a revert or a halt. -/
def Accepted {σ : Type} (b : Backend σ) (executor : FlashteststationsExecutor) (ctx : BlockContext)
    (attestation : Bytes) (payload : Checkpoint σ) : Prop :=
  ∀ result p₁, Answers b executor ctx (registration executor ctx attestation) payload result p₁ →
    Succeeded result ∧
      (executor.manager.enableBlockProofs = true → ∀ result p,
        Answers b executor ctx (blockProof b executor p₁ ctx) p₁ result p → Succeeded result)

/-- The transactions of `p` that `payload` did not have, with their results. -/
def added {σ : Type} (payload p : Checkpoint σ) : List (Transaction × ExecutionResult) :=
  p.executed.drop payload.executed.length

variable {σ : Type} {b : Backend σ} {executor : FlashteststationsExecutor} {ctx : BlockContext}
variable {payload p : Checkpoint σ}

theorem succeeded_of_verified {e : Transaction × ExecutionResult} (h : Verified e) :
    Succeeded e.2 := by
  obtain ⟨_, _, _, _, _, _, rfl, _, _⟩ := h
  trivial

theorem verified_of_succeeded {request : TransactionRequest} {signature : Signature}
    {signer : Address} {event : B256} {result : ExecutionResult}
    (hevent : expectedEvent request.input = some event) (hcheck : PassesCheck event result)
    (h : Succeeded result) : Verified (.signed request signature signer, result) := by
  cases result with
  | success logs output => exact ⟨_, _, _, _, _, _, rfl, hevent, hcheck _ _ rfl⟩
  | revert output => cases h
  | halt reason => cases h

theorem verified_iff_of_granted {kind : PermitKind} (g : Granted b executor kind ctx payload p)
    (hevent : ∀ nonce signature, expectedEvent (kind.permitCall nonce signature) =
      some kind.event) :
    Verified (g.submission.tx, g.submission.result) ↔ Succeeded g.submission.result :=
  ⟨succeeded_of_verified,
    verified_of_succeeded (hevent g.permit.nonce g.permit.signature.asBytes) g.passesCheck⟩

/-- There is one answer. -/
theorem answers_iff_of_granted {kind : PermitKind} {result : ExecutionResult} {q : Checkpoint σ}
    (g : Granted b executor kind ctx payload p) :
    Answers b executor ctx kind payload result q ↔ q = p ∧ result = g.submission.result := by
  have hexecute := executeTransaction_eq_ok.mpr ⟨g.submission⟩
  have hresult : p.result = some [g.submission.result] :=
    (congrArg Checkpoint.result g.submission.payload_eq).trans (Checkpoint.result_push _ _ _ _)
  constructor
  · rintro ⟨permit, hsign, hexecute', hresult'⟩
    obtain rfl : permit = g.permit := Except.ok.inj (hsign.symm.trans g.sign_eq)
    obtain rfl : q = p := Except.ok.inj (hexecute'.symm.trans hexecute)
    rw [hresult] at hresult'
    cases hresult'
    exact ⟨rfl, rfl⟩
  · rintro ⟨rfl, rfl⟩
    exact ⟨g.permit, g.sign_eq, hexecute, hresult⟩

/-- **When the event check does its work.** Every transaction that
`addTransactions` added is executed successfully and logged its event, if and
only if the chain answered none of them with a revert or a halt. -/
theorem added_verified_iff {attestation : Bytes}
    (h : executor.addTransactions b payload ctx attestation = .ok p) :
    (∀ e ∈ added payload p, Verified e) ↔ Accepted b executor ctx attestation payload := by
  cases addTransactions_eq_ok.mp h with
  | registered disabled reg =>
    have hadded : added payload p = [(reg.submission.tx, reg.submission.result)] := by
      rw [added, reg.submission.executed_eq, List.drop_left]
    have hverified := verified_iff_of_granted reg fun _ _ => rfl
    simp [hadded, hverified, Accepted, answers_iff_of_granted reg, disabled]
  | proved enabled reg proof =>
    have hadded : added payload p = [(reg.submission.tx, reg.submission.result),
        (proof.submission.tx, proof.submission.result)] := by
      rw [added, proof.submission.executed_eq, reg.submission.executed_eq, List.append_assoc,
        List.drop_left, List.singleton_append]
    have hreg := verified_iff_of_granted reg fun _ _ => rfl
    have hproof := verified_iff_of_granted proof fun _ _ => rfl
    simp [hadded, hreg, hproof, Accepted, answers_iff_of_granted reg, answers_iff_of_granted proof,
      enabled]

/-- One transaction, and it reverted: neither side holds. -/
theorem added_verified_iff_reverted :
    ∃ p, (devnetExecutor false).addTransactions devnet (Counters.payload ⟨0, 0⟩) default [] =
        .ok p ∧
      ((∀ e ∈ added (Counters.payload ⟨0, 0⟩) p, Verified e) ↔
        Accepted devnet (devnetExecutor false) default [] (Counters.payload ⟨0, 0⟩)) := by
  obtain ⟨p, hp, -⟩ := map_eq_ok.mp (rfl : ((devnetExecutor false).addTransactions devnet
    (Counters.payload ⟨0, 0⟩) default []).map (fun p => p.executed.length) = .ok 1)
  exact ⟨p, hp, added_verified_iff hp⟩

/-- The registry rejects the permit; the transaction that reverted is kept. -/
theorem reverted_registration_kept :
    ∃ p, (devnetExecutor false).addTransactions devnet (Counters.payload ⟨0, 0⟩) default [] =
        .ok p ∧
      ∃ e ∈ added (Counters.payload ⟨0, 0⟩) p, e.2 = .revert [] ∧ ¬ Verified e := by
  obtain ⟨p, hp, hresults⟩ := map_eq_ok.mp (rfl : ((devnetExecutor false).addTransactions devnet
    (Counters.payload ⟨0, 0⟩) default []).map
      (fun p => (added (Counters.payload ⟨0, 0⟩) p).map Prod.snd) = .ok [.revert []])
  have hmem : .revert [] ∈ (added (Counters.payload ⟨0, 0⟩) p).map Prod.snd := by
    rw [hresults]
    exact List.mem_singleton_self _
  obtain ⟨e, he, hrevert⟩ := List.mem_map.mp hmem
  refine ⟨p, hp, e, he, hrevert, fun hverified => ?_⟩
  have := succeeded_of_verified hverified
  rw [hrevert] at this
  exact this

end UnichainBuilder.Flashtestations.EventCheck

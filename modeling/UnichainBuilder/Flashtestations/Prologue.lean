import UnichainBuilder.Job
import UnichainBuilder.Flashtestations.Permit

/-! # The flashtestations prologue

`step.rs`: the pipeline step that adds the transactions of the executor to the
payload of a job. Whatever goes wrong, the job continues. -/
namespace UnichainBuilder.Flashtestations.Prologue
open UnichainBuilder.Block UnichainBuilder.Publish UnichainBuilder.Job
open UnichainBuilder.Checkpoints (Payload Extension)
open UnichainBuilder.Flashtestations.Contracts UnichainBuilder.Flashtestations.Execution
open UnichainBuilder.Flashtestations.Executor UnichainBuilder.Flashtestations.Permit

structure FlashtestationsPrologue where
  /-- Flashtestations is enabled if and only if there is a manager. -/
  manager : Option FlashtestationsManager
  /-- Attestation for the builder. -/
  attestation : Option Bytes
  deriving DecidableEq, Repr

namespace FlashtestationsPrologue
variable {σ : Type} (b : Backend σ) (self : FlashtestationsPrologue)

def getAttestation : Except Report Bytes := context self.attestation "no attestation found"

def step (payload : Checkpoint σ) (ctx : BlockContext) : ControlFlow (Checkpoint σ) :=
  match self.manager with
  | none => .ok payload
  | some manager =>
    match self.getAttestation with
    | .error _ => .ok payload
    | .ok attestation =>
      let executor : FlashteststationsExecutor := ⟨manager⟩
      match executor.addTransactions b payload ctx attestation with
      | .ok newPayload => .ok newPayload
      | .error _ => .ok payload

/-! ## What the step adds -/

/-- The step has nothing to add or fails to. -/
def Fails (payload : Checkpoint σ) (ctx : BlockContext) : Prop :=
  ∀ manager attestation, self.manager = some manager → self.attestation = some attestation →
    ∃ report, FlashteststationsExecutor.addTransactions b ⟨manager⟩ payload ctx attestation =
      .error report

variable {b self} {payload : Checkpoint σ} {ctx : BlockContext}

theorem step_of_fails (h : self.Fails b payload ctx) : self.step b payload ctx = .ok payload := by
  unfold step
  cases hmanager : self.manager with
  | none => rfl
  | some manager =>
    cases hattestation : self.attestation with
    | none => simp [getAttestation, context, hattestation]
    | some attestation =>
      obtain ⟨report, hreport⟩ := h manager attestation hmanager hattestation
      simp [getAttestation, context, hattestation, hreport]

/-- Everything the step can return. -/
theorem fails_or_adds (self : FlashtestationsPrologue) (b : Backend σ) (payload : Checkpoint σ)
    (ctx : BlockContext) :
    self.Fails b payload ctx ∨
      ∃ manager attestation p, self.manager = some manager ∧ self.attestation = some attestation ∧
        self.step b payload ctx = .ok p ∧ Adds b ⟨manager⟩ ctx attestation payload p := by
  cases hmanager : self.manager with
  | none => exact .inl fun _ _ h => by rw [hmanager] at h; cases h
  | some manager =>
    cases hattestation : self.attestation with
    | none => exact .inl fun _ _ _ h => by rw [hattestation] at h; cases h
    | some attestation =>
      cases hadd : FlashteststationsExecutor.addTransactions b ⟨manager⟩ payload ctx
          attestation with
      | error report =>
        left
        intro manager' attestation' hm ha
        rw [hmanager] at hm
        rw [hattestation] at ha
        cases hm
        cases ha
        exact ⟨report, hadd⟩
      | ok p =>
        refine .inr ⟨manager, attestation, p, rfl, rfl, ?_, addTransactions_eq_ok.mp hadd⟩
        unfold step
        simp [hmanager, getAttestation, context, hattestation, hadd]

/-- A transaction of the builder key that makes the call of a permit. -/
def MakesPermitCall (b : Backend σ) (manager : FlashtestationsManager) (kind : PermitKind)
    (nonce : UInt64) (tx : Transaction) : Prop :=
  ∃ request signature permitNonce permitSignature,
    tx = .signed request signature (b.address manager.builderKey) ∧ request.nonce = nonce ∧
      request.toAddress = kind.contract ∧
      request.input = kind.permitCall permitNonce permitSignature

/-- `p` is `payload` and the transaction, executed where `payload` had left
the chain. -/
def Extends (b : Backend σ) (payload : Checkpoint σ) (tx : Transaction) (p : Checkpoint σ) : Prop :=
  ∃ result state, b.execute payload.state tx = .ok (result, state) ∧
    p = payload.push tx result state

theorem extends_of_granted {manager : FlashtestationsManager} {kind : PermitKind}
    {p : Checkpoint σ} (g : Granted b ⟨manager⟩ kind ctx payload p) :
    MakesPermitCall b manager kind g.submission.nonce g.submission.tx ∧
      Extends b payload g.submission.tx p :=
  ⟨⟨_, _, g.permit.nonce, g.permit.signature.asBytes, rfl, rfl, rfl, rfl⟩,
    ⟨_, _, g.submission.execute_eq, g.submission.payload_eq⟩⟩

/-- **All or nothing.** The step returns the payload as it was, or with the
registration, or with the registration and then the block proof, as enabled:
transactions of the builder key, with its next nonces, executed one after the
other on the payload. After any failure it returns the payload as it was. -/
theorem step_all_or_nothing (b : Backend σ) (self : FlashtestationsPrologue)
    (payload : Checkpoint σ) (ctx : BlockContext) :
    (self.Fails b payload ctx → self.step b payload ctx = .ok payload) ∧
    ∃ p, self.step b payload ctx = .ok p ∧
      (p = payload ∨
        ∃ manager attestation nonce registrationTx p₁,
          self.manager = some manager ∧ self.attestation = some attestation ∧
          b.nonceOf payload (b.address manager.builderKey) = .ok nonce ∧
          MakesPermitCall b manager (registration ⟨manager⟩ ctx attestation) nonce
            registrationTx ∧
          Extends b payload registrationTx p₁ ∧
          (manager.enableBlockProofs = false ∧ p = p₁ ∧
              p.allTransactions = payload.allTransactions ++ [registrationTx] ∨
            manager.enableBlockProofs = true ∧ ∃ proofTx,
              MakesPermitCall b manager (blockProof b ⟨manager⟩ p₁ ctx) (nonce + 1) proofTx ∧
              Extends b p₁ proofTx p ∧
              p.allTransactions = payload.allTransactions ++ [registrationTx, proofTx])) := by
  refine ⟨step_of_fails, ?_⟩
  rcases self.fails_or_adds b payload ctx with
    hfails | ⟨manager, attestation, p, hmanager, hattestation, hstep, hadds⟩
  · exact ⟨payload, step_of_fails hfails, .inl rfl⟩
  · refine ⟨p, hstep, .inr ⟨manager, attestation, ?_⟩⟩
    cases hadds with
    | registered disabled reg =>
      obtain ⟨hcall, hext⟩ := extends_of_granted reg
      exact ⟨_, _, p, hmanager, hattestation, reg.submission.nonce_eq, hcall, hext,
        .inl ⟨disabled, rfl, reg.submission.transactions_eq⟩⟩
    | proved enabled reg proof =>
      obtain ⟨hcall, hext⟩ := extends_of_granted reg
      obtain ⟨hproofCall, hproofExt⟩ := extends_of_granted proof
      have hnonce : proof.submission.nonce = reg.submission.nonce + 1 :=
        Except.ok.inj (proof.submission.nonce_eq.symm.trans reg.submission.nonceOf_eq)
      refine ⟨_, _, _, hmanager, hattestation, reg.submission.nonce_eq, hcall, hext,
        .inr ⟨enabled, _, hnonce ▸ hproofCall, hproofExt, ?_⟩⟩
      rw [proof.submission.transactions_eq, reg.submission.transactions_eq, List.append_assoc]
      rfl

/-! ## The payload of the job -/

/-- The extension of a payload by one transaction, with the gas that it used. -/
def applied (gas : Transaction → UInt64 × UInt64) (tx : Transaction) : Extension Transaction :=
  .apply (.transaction tx) (gas tx).1 (gas tx).2

/-- The step extends the payload of the job, by at most two transactions. -/
theorem tipOf_step (self : FlashtestationsPrologue) (b : Backend σ) (ctx : BlockContext)
    {p : Payload Transaction} (h : TipOf p payload) (gas : Transaction → UInt64 × UInt64) :
    ∃ txs : List Transaction, txs.length ≤ 2 ∧
      TipOf (p.extendAll (txs.map (applied gas))) (self.step b payload ctx).payload := by
  have hpush {p : Payload Transaction} {c c' : Checkpoint σ} {contract : Address} {call : SolCall}
      {executor : FlashteststationsExecutor} (h : TipOf p c)
      (s : Submission b executor ctx contract call c c') :
      TipOf (p.extend (applied gas s.tx)) c' := by
    have htip := h.push s.tx s.result s.state (gas s.tx).1 (gas s.tx).2
    exact (congrArg (TipOf _) s.payload_eq).mpr htip
  rcases self.fails_or_adds b payload ctx with
    hfails | ⟨manager, attestation, p', -, -, hstep, hadds⟩
  · rw [step_of_fails hfails]
    exact ⟨[], Nat.zero_le _, h⟩
  · rw [hstep]
    cases hadds with
    | registered disabled reg => exact ⟨[reg.submission.tx], Nat.le_succ 1, hpush h reg.submission⟩
    | proved enabled reg proof =>
      exact ⟨[reg.submission.tx, proof.submission.tx], Nat.le_refl 2,
        hpush (hpush h reg.submission) proof.submission⟩

/-- A job whose prologue is this step enters the loop with what the step returned. -/
theorem enter_of_step (self : FlashtestationsPrologue) (b : Backend σ) (ctx : BlockContext)
    (publisher : PublishFlashblock) (s : σ) (gas : Transaction → UInt64 × UInt64) :
    ∃ txs : List Transaction, (JobState.enter publisher (txs.map (applied gas))).payload.transactions =
      (self.step b ⟨s, [], s⟩ ctx).payload.allTransactions := by
  obtain ⟨txs, -, htip⟩ := self.tipOf_step b ctx (TipOf.new s) gas
  exact ⟨txs, htip.transactions_eq⟩

end FlashtestationsPrologue
end UnichainBuilder.Flashtestations.Prologue

import UnichainBuilder.Flashtestations.Prologue

/-! # The block proof in the pipeline

`build_pipeline` of `main.rs`. The prologue proves the block once, before the
loop; whatever the loop appends, the proof does not know of. -/
namespace UnichainBuilder.Flashtestations.Pipeline
open UnichainBuilder.Lib.RustStd UnichainBuilder.Block UnichainBuilder.Publish
open UnichainBuilder.Flashtestations.Contracts UnichainBuilder.Flashtestations.Execution
open UnichainBuilder.Flashtestations.Executor UnichainBuilder.Flashtestations.Permit
open UnichainBuilder.Flashtestations.Prologue

/-! ## Building it -/

structure FlashtestationsArgs where
  flashtestationsEnabled : Bool
  debug : Bool
  quoteProvider : Option String
  /-- Enable end of block TEE proof. -/
  enableBlockProofs : Bool
  registryAddress : Option Address
  builderPolicyAddress : Option Address
  builderProofVersion : UInt8
  deriving DecidableEq, Repr

structure BuilderArgs where
  revertProtection : Bool
  builderSigner : Option BuilderSigner
  flashtestations : FlashtestationsArgs
  deriving DecidableEq, Repr

def debugQuoteServiceUrl : String := "http://ns31695324.ip-141-94-163.eu:10080/attest"

/-- `RemoteAttestationProvider::try_new`, down to the URL of the service. -/
def tryNewProvider (debug : Bool) (quoteProvider : Option String) : Except Report String :=
  if debug then return quoteProvider.getD debugQuoteServiceUrl
  else context quoteProvider "remote quote provider must be specified when not in debug mode"

/-- `FlashtestationsManager::try_new`, given what loading the TEE key gave. The
manager is kept without its provider. -/
def tryNewManager (args : FlashtestationsArgs) (teeKey : Except Report BuilderSigner)
    (builderKey : BuilderSigner) : Except Report FlashtestationsManager := do
  let teeSigner ← teeKey
  let registryAddress ← context args.registryAddress
    "registry address required when flashtestations enabled"
  let builderPolicyAddress ← context args.builderPolicyAddress
    "builder policy address required when flashtestations enabled"
  let _ ← tryNewProvider args.debug args.quoteProvider
  return {
    teeSigner
    builderKey
    registryAddress
    builderPolicyAddress
    builderProofVersion := args.builderProofVersion
    enableBlockProofs := args.enableBlockProofs }

/-- `FlashtestationsPrologue::try_new`. -/
def tryNewPrologue (args : FlashtestationsArgs) (teeKey : Except Report BuilderSigner)
    (builderKey : BuilderSigner) : Except Report FlashtestationsPrologue := do
  if !args.flashtestationsEnabled then
    return { manager := none, attestation := none }
  let manager ← tryNewManager args teeKey builderKey
  return { manager := some manager, attestation := none }

inductive PipelineStep
  | optimismPrologue
  | flashtestationsPrologue (prologue : FlashtestationsPrologue)
  | appendOrders
  | orderByPriorityFee
  | removeRevertedTransactions
  | breakAfterDeadline
  | builderEpilogue (signer : BuilderSigner)
  | publishFlashblock
  | breakAfterMaxFlashblocks

inductive Node
  | step (s : PipelineStep)
  | loop (body : List Node)

def withStepIf (condition : Bool) (s : PipelineStep) : List Node :=
  if condition then [.step s] else []

/-- The pipelines named `flashblocks` and, inside it, `single_flashblock`. -/
def flashblocks (args : BuilderArgs) (builderSigner : BuilderSigner) : List Node :=
  [.loop (
    [.step .appendOrders, .step .orderByPriorityFee] ++
    withStepIf args.revertProtection .removeRevertedTransactions ++
    [.step .breakAfterDeadline])] ++
  withStepIf args.builderSigner.isSome (.builderEpilogue builderSigner) ++
  [.step .publishFlashblock, .step .breakAfterMaxFlashblocks]

def buildPipeline (args : BuilderArgs) (teeKey : Except Report BuilderSigner)
    (random : BuilderSigner) : Except Report (List Node) := do
  let builderSigner := args.builderSigner.getD random
  let flashtestations ← tryNewPrologue args.flashtestations teeKey builderSigner
  return [.step .optimismPrologue] ++
    withStepIf (args.flashtestations.flashtestationsEnabled && args.builderSigner.isSome)
      (.flashtestationsPrologue flashtestations) ++
    [.loop (flashblocks args builderSigner)]

/-- A job on these nodes. The flashtestations prologue does what it does, with
the attestation that its setup got; the other nodes append transactions, given
in order, whatever else they do to the checkpoint. -/
inductive Runs {σ : Type} (b : Backend σ) (attestation : Option Bytes) (ctx : BlockContext) :
    List Node → List (List Transaction) → Checkpoint σ → Checkpoint σ → Prop
  | done {p : Checkpoint σ} : Runs b attestation ctx [] [] p p
  | flashtestations {prologue : FlashtestationsPrologue} {rest : List Node}
      {appended : List (List Transaction)} {p q : Checkpoint σ}
      (continues : Runs b attestation ctx rest appended
        (({ prologue with attestation } : FlashtestationsPrologue).step b p ctx).payload q) :
      Runs b attestation ctx (.step (.flashtestationsPrologue prologue) :: rest) appended p q
  | appends {node : Node} {rest : List Node} {txs : List Transaction}
      {appended : List (List Transaction)} {p p' q : Checkpoint σ}
      (other : ∀ prologue, node ≠ .step (.flashtestationsPrologue prologue))
      (transactions : p'.allTransactions = p.allTransactions ++ txs)
      (continues : Runs b attestation ctx rest appended p' q) :
      Runs b attestation ctx (node :: rest) (txs :: appended) p q

section
variable {σ : Type} {b : Backend σ} {attestation : Option Bytes} {ctx : BlockContext}
variable {args : BuilderArgs} {teeKey : Except Report BuilderSigner} {random : BuilderSigner}
variable {pipeline : List Node} {start final : Checkpoint σ}
variable {sequencer appended : List Transaction}

/-- A transaction that submits the content hash of a payload. -/
def ProvesContentOf (b : Backend σ) (ctx : BlockContext) (hashed : Checkpoint σ)
    (tx : Transaction) : Prop :=
  ∃ request signature signer version nonce eip712Sig,
    tx = .signed request signature signer ∧
      request.input = .policy (.permitVerifyBlockBuilderProof version
        (FlashteststationsExecutor.computeBlockContentHash b hashed ctx) nonce eip712Sig)

/-- What the prologue makes of a payload where block proofs are enabled. -/
theorem step_transactions (prologue : FlashtestationsPrologue) (payload : Checkpoint σ)
    (enabled : ∀ manager ∈ prologue.manager, manager.enableBlockProofs = true) :
    (prologue.step b payload ctx).payload = payload ∨
      ∃ hashed registrationTx proof, ProvesContentOf b ctx hashed proof ∧
        hashed.allTransactions = payload.allTransactions ++ [registrationTx] ∧
        hashed.ownTransactions = [registrationTx] ∧
        (prologue.step b payload ctx).payload.allTransactions = hashed.allTransactions ++ [proof] := by
  rcases prologue.fails_or_adds b payload ctx with
    hfails | ⟨manager, attestation, p, hmanager, -, hstep, hadds⟩
  · rw [FlashtestationsPrologue.step_of_fails hfails]
    exact .inl rfl
  · rw [hstep]
    cases hadds with
    | registered disabled _ =>
      exact absurd (enabled manager hmanager) (Bool.eq_false_iff.mp disabled)
    | proved _ reg proof =>
      refine .inr ⟨_, _, proof.submission.tx, ?_, reg.submission.transactions_eq,
        reg.submission.ownTransactions_eq, proof.submission.transactions_eq⟩
      exact ⟨_, _, _, _, _, _, rfl, rfl⟩

/-- The manager, if there is one, has the TEE key that was loaded, no registration
data besides the quote, and the switch of the arguments. -/
theorem tryNewPrologue_eq_ok {args : FlashtestationsArgs} {builderKey : BuilderSigner}
    {prologue : FlashtestationsPrologue} (h : tryNewPrologue args teeKey builderKey = .ok prologue) :
    prologue.attestation = none ∧ ∀ manager ∈ prologue.manager,
      teeKey = .ok manager.teeSigner ∧ manager.extraRegistrationData = [] ∧
        manager.enableBlockProofs = args.enableBlockProofs := by
  unfold tryNewPrologue at h
  split at h
  · cases h
    exact ⟨rfl, fun _ hmanager => by cases hmanager⟩
  · simp only [bind_eq_ok, pure_eq_ok, tryNewManager] at h
    obtain ⟨_, ⟨_, hkey, _, _, _, _, _, _, rfl⟩, rfl⟩ := h
    refine ⟨rfl, fun manager hmanager => ?_⟩
    cases hmanager
    exact ⟨hkey, rfl, rfl⟩

/-- The nodes of the pipeline, in order. Where the flashtestations prologue is
one, the loop closes every flashblock with a transaction of the builder. -/
theorem buildPipeline_eq_ok (h : buildPipeline args teeKey random = .ok pipeline) :
    ∃ body prologue, (∀ manager ∈ prologue.manager,
        manager.enableBlockProofs = args.flashtestations.enableBlockProofs) ∧
      (pipeline = [.step .optimismPrologue, .loop body] ∨
        pipeline = [.step .optimismPrologue, .step (.flashtestationsPrologue prologue),
            .loop body] ∧
          ∃ signer, .step (.builderEpilogue signer) ∈ body) := by
  simp only [buildPipeline, bind_eq_ok, pure_eq_ok] at h
  obtain ⟨prologue, hprologue, rfl⟩ := h
  refine ⟨flashblocks args (args.builderSigner.getD random), prologue,
    fun manager hmanager => ((tryNewPrologue_eq_ok hprologue).2 manager hmanager).2.2, ?_⟩
  cases hcondition : args.flashtestations.flashtestationsEnabled && args.builderSigner.isSome with
  | false => exact .inl rfl
  | true =>
    have hsigner : args.builderSigner.isSome = true := (Bool.and_eq_true_iff.mp hcondition).2
    exact .inr ⟨rfl, args.builderSigner.getD random, by simp [flashblocks, withStepIf, hsigner]⟩

/-- Part of `front` compared with a list that goes on, but for the entry after `front`. -/
theorem eq_eraseIdx_iff {α : Type} {listed front back : List α} {a : α}
    (hlisted : listed.Sublist front) :
    listed = (front ++ a :: back).eraseIdx front.length ↔ back = [] ∧ listed = front := by
  rw [List.eraseIdx_append_of_length_le (Nat.le_refl _), Nat.sub_self, List.eraseIdx_cons_zero]
  constructor
  · intro h
    have hlength := hlisted.length_le
    rw [h, List.length_append] at hlength
    have hback : back = [] := List.length_eq_zero_iff.mp (by omega)
    exact ⟨hback, by rw [h, hback, List.append_nil]⟩
  · rintro ⟨rfl, rfl⟩
    rw [List.append_nil]

namespace Runs
variable {rest : List Node} {more : List (List Transaction)} {txs : List Transaction}
variable {p q : Checkpoint σ}

theorem optimismPrologue
    (h : Runs b attestation ctx (.step .optimismPrologue :: rest) (txs :: more) p q) :
    ∃ p', p'.allTransactions = p.allTransactions ++ txs ∧ Runs b attestation ctx rest more p' q := by
  cases h with
  | appends _ htxs continues => exact ⟨_, htxs, continues⟩

theorem flashtestationsPrologue {prologue : FlashtestationsPrologue}
    (h : Runs b attestation ctx (.step (.flashtestationsPrologue prologue) :: rest) more p q) :
    Runs b attestation ctx rest more
      (({ prologue with attestation } : FlashtestationsPrologue).step b p ctx).payload q := by
  cases h with
  | flashtestations continues => exact continues
  | appends other _ _ => exact absurd rfl (other prologue)

theorem lastLoop {body : List Node} (h : Runs b attestation ctx [.loop body] [txs] p q) :
    q.allTransactions = p.allTransactions ++ txs := by
  cases h with
  | appends _ htxs continues =>
    cases continues
    exact htxs

end Runs

/-- What a job with block proofs enabled comes to: the transactions that the
other nodes appended, and between them nothing or a registration and a proof. -/
theorem transactions_of_runs (hbuild : buildPipeline args teeKey random = .ok pipeline)
    (enabled : args.flashtestations.enableBlockProofs = true)
    (hrun : Runs b attestation ctx pipeline [sequencer, appended] start final) :
    final.allTransactions = start.allTransactions ++ sequencer ++ appended ∨
      ∃ hashed registrationTx proof, ProvesContentOf b ctx hashed proof ∧
        hashed.allTransactions = start.allTransactions ++ sequencer ++ [registrationTx] ∧
        hashed.ownTransactions = [registrationTx] ∧
        final.allTransactions = hashed.allTransactions ++ proof :: appended := by
  obtain ⟨body, prologue, hmanager, rfl | ⟨rfl, -⟩⟩ := buildPipeline_eq_ok hbuild
  · obtain ⟨p, hfirst, hloop⟩ := hrun.optimismPrologue
    exact .inl (by rw [hloop.lastLoop, hfirst])
  · obtain ⟨p, hfirst, hprologue⟩ := hrun.optimismPrologue
    have hlast := hprologue.flashtestationsPrologue.lastLoop
    rcases step_transactions { prologue with attestation } p
      (fun manager hm => (hmanager manager hm).trans enabled) with
      hsame | ⟨hashed, registrationTx, proof, hproves, hhashed, hown, hstep⟩
    · exact .inl (by rw [hlast, hsame, hfirst])
    · refine .inr ⟨hashed, registrationTx, proof, hproves, by rw [hhashed, hfirst], hown, ?_⟩
      rw [hlast, hstep, List.append_assoc, List.singleton_append]

/-- **When the proof is about the final block.** In a job with block proofs
enabled, the final block is what the other nodes appended, or it contains a
proof, which the payload with the registration was hashed for. What the library
lists of that payload is the final block without the proof if and only if the
loop appended nothing and the library lists all of the payload. Where it lists
the registration alone, nothing may come before the registration either. -/
theorem hashed_eq_final_iff
    (lists : ∀ payload, (b.transactions payload).Sublist payload.allTransactions)
    (hbuild : buildPipeline args teeKey random = .ok pipeline)
    (enabled : args.flashtestations.enableBlockProofs = true)
    (hrun : Runs b attestation ctx pipeline [sequencer, appended] start final) :
    final.allTransactions = start.allTransactions ++ sequencer ++ appended ∨
      ∃ hashed registrationTx proof, ProvesContentOf b ctx hashed proof ∧
        hashed.allTransactions = start.allTransactions ++ sequencer ++ [registrationTx] ∧
        final.allTransactions = hashed.allTransactions ++ proof :: appended ∧
        (b.transactions hashed =
            final.allTransactions.eraseIdx hashed.allTransactions.length ↔
          appended = [] ∧ b.transactions hashed = hashed.allTransactions) ∧
        (b.transactions hashed = hashed.ownTransactions →
          (b.transactions hashed =
              final.allTransactions.eraseIdx hashed.allTransactions.length ↔
            appended = [] ∧ start.allTransactions ++ sequencer = [])) := by
  rcases transactions_of_runs hbuild enabled hrun with
    hnone | ⟨hashed, registrationTx, proof, hproves, hhashed, hown, hfinal⟩
  · exact .inl hnone
  · have hall : b.transactions hashed =
          final.allTransactions.eraseIdx hashed.allTransactions.length ↔
        appended = [] ∧ b.transactions hashed = hashed.allTransactions := by
      rw [hfinal]
      exact eq_eraseIdx_iff (lists hashed)
    refine .inr ⟨hashed, registrationTx, proof, hproves, hhashed, hfinal, hall, fun honly => ?_⟩
    rw [hall, honly, hown, hhashed, List.self_eq_append_left]

end

/-! ## A job on the devnet -/

def devnetArgs : BuilderArgs where
  revertProtection := false
  builderSigner := some ⟨8⟩
  flashtestations := {
    flashtestationsEnabled := true
    debug := true
    quoteProvider := none
    enableBlockProofs := true
    registryAddress := some Counters.registryAddress
    builderPolicyAddress := some Counters.policyAddress
    builderProofVersion := 1 }

def devnetPipeline : List Node :=
  [.step .optimismPrologue,
    .step (.flashtestationsPrologue ⟨some (devnetExecutor true).manager, none⟩),
    .loop (flashblocks devnetArgs ⟨8⟩)]

theorem devnet_builds : buildPipeline devnetArgs (.ok ⟨7⟩) ⟨9⟩ = .ok devnetPipeline := rfl

/-- The payload behind the prologue. -/
def devnetProved : Checkpoint Counters :=
  (FlashtestationsPrologue.step devnet ⟨some (devnetExecutor true).manager, some []⟩
    (Counters.payload ⟨0, 0⟩) default).payload

/-- The loop appends one transaction. -/
def devnetFinal : Checkpoint Counters :=
  devnetProved.push (.received [1] 9) (.success [] []) devnetProved.state

theorem devnet_runs :
    Runs devnet (some []) default devnetPipeline [[], [.received [1] 9]] (Counters.payload ⟨0, 0⟩)
      devnetFinal :=
  .appends (by simp) (List.append_nil _).symm <| .flashtestations <|
    .appends (by simp) (Checkpoint.allTransactions_push _ _ _ _) .done

theorem hashed_eq_final_iff_devnet :
    devnetFinal.allTransactions = [] ++ [] ++ [.received [1] 9] ∨
      ∃ hashed registrationTx proof, ProvesContentOf devnet default hashed proof ∧
        hashed.allTransactions = [] ++ [] ++ [registrationTx] ∧
        devnetFinal.allTransactions = hashed.allTransactions ++ proof :: [.received [1] 9] ∧
        (devnet.transactions hashed =
            devnetFinal.allTransactions.eraseIdx hashed.allTransactions.length ↔
          [Transaction.received [1] 9] = [] ∧
            devnet.transactions hashed = hashed.allTransactions) ∧
        (devnet.transactions hashed = hashed.ownTransactions →
          (devnet.transactions hashed =
              devnetFinal.allTransactions.eraseIdx hashed.allTransactions.length ↔
            [Transaction.received [1] 9] = [] ∧ ([] ++ [] : List Transaction) = [])) :=
  hashed_eq_final_iff Checkpoint.ownTransactions_sublist devnet_builds rfl devnet_runs

/-- The list that was hashed misses the transaction of the loop. -/
theorem hashed_ne_final_devnet :
    buildPipeline devnetArgs (.ok ⟨7⟩) ⟨9⟩ = .ok devnetPipeline ∧
      Runs devnet (some []) default devnetPipeline [[], [.received [1] 9]]
        (Counters.payload ⟨0, 0⟩) devnetFinal ∧
      ∃ hashed proof, ProvesContentOf devnet default hashed proof ∧
        devnetFinal.allTransactions = hashed.allTransactions ++ proof :: [.received [1] 9] ∧
        devnet.transactions hashed = hashed.allTransactions ∧
        devnet.transactions hashed ≠
          devnetFinal.allTransactions.eraseIdx hashed.allTransactions.length := by
  refine ⟨devnet_builds, devnet_runs, ?_⟩
  rcases transactions_of_runs devnet_builds rfl devnet_runs with
    hnone | ⟨hashed, _, proof, hproves, hhashed, hown, hfinal⟩
  · have hthree : devnetFinal.allTransactions.length = 3 := by decide +kernel
    rw [hnone] at hthree
    cases hthree
  · refine ⟨hashed, proof, hproves, hfinal, hown.trans hhashed.symm, ?_⟩
    rw [hfinal]
    intro h
    cases ((eq_eraseIdx_iff (Checkpoint.ownTransactions_sublist hashed)).mp h).1

end UnichainBuilder.Flashtestations.Pipeline

import UnichainBuilder.Flashtestations.Permit

/-! # What the contract checks of a permit

The contract rebuilds the digest from the calldata and recovers the signer of
it. The executor hands over the arguments that it had hashed, but signs the
digest like a message of a wallet, hashed once more under the EIP-191 prefix. -/
namespace UnichainBuilder.Flashtestations.PermitSignature
open UnichainBuilder.Lib.Bytes UnichainBuilder.Lib.RustStd UnichainBuilder.Block
open UnichainBuilder.Flashtestations.Contracts UnichainBuilder.Flashtestations.Execution
open UnichainBuilder.Flashtestations.Executor UnichainBuilder.Flashtestations.Permit

/-- The data that a permit is about. -/
inductive PermitData
  | registration (rawQuote extendedRegistrationData : Bytes) (nonce deadline : U256)
  | blockProof (version : UInt8) (blockContentHash : B256) (nonce : U256)
  deriving DecidableEq, Repr

/-- The arguments of `computeStructHash`. -/
def hashedData : SolCall → Option PermitData
  | .registry (.computeStructHash rawQuote extended nonce deadline) =>
    some (.registration rawQuote extended nonce deadline)
  | .policy (.computeStructHash version blockContentHash nonce) =>
    some (.blockProof version blockContentHash nonce)
  | _ => none

/-- The arguments of a permit, the signature apart. -/
def submittedData : SolCall → Option (PermitData × Bytes)
  | .registry (.permitRegisterTEEService rawQuote extended nonce deadline signature) =>
    some (.registration rawQuote extended nonce deadline, signature)
  | .policy (.permitVerifyBlockBuilderProof version blockContentHash nonce signature) =>
    some (.blockProof version blockContentHash nonce, signature)
  | _ => none

/-- A signature recovers to the address of its signer on the hash that was
signed, and on no other. -/
def IdealEcdsa {σ : Type} (b : Backend σ) (recover : B256 → Bytes → Option Address) : Prop :=
  ∀ signer hash signature, b.signHash signer hash = .ok signature →
    ∀ digest, recover digest signature.asBytes = some (b.address signer) ↔ digest = hash

/-- The submitted data is what was hashed, and the signature is one of the TEE
key on the digest that the contract gave. -/
def Verifies (recover : B256 → Bytes → Option Address) (tee : Address) (kind : PermitKind)
    (permit : SignedPermit) : Prop :=
  ∃ data signature, hashedData (kind.structHashCall permit.nonce) = some data ∧
    submittedData (permit.call kind) = some (data, signature) ∧
    recover permit.digest signature = some tee

section
variable {σ : Type} {b : Backend σ} {executor : FlashteststationsExecutor} {ctx : BlockContext}
variable {payload : Checkpoint σ} {recover : B256 → Bytes → Option Address}

/-- A permit that submits the data it had hashed stands and falls with the
digest: the signature is on its EIP-191 hash. -/
theorem verifies_iff_of_sameData (ideal : IdealEcdsa b recover) {kind : PermitKind}
    {permit : SignedPermit} {data : PermitData}
    (hhashed : hashedData (kind.structHashCall permit.nonce) = some data)
    (hsubmitted : submittedData (permit.call kind) = some (data, permit.signature.asBytes))
    (h : signPermit b executor kind payload ctx = .ok permit) :
    Verifies recover (b.address executor.manager.teeSigner) kind permit ↔
      permit.digest = b.eip191HashMessage (toBytes permit.digest) := by
  obtain ⟨-, -, -, hsign⟩ := signPermit_eq_ok.mp h
  have hrecover := ideal _ _ _ (Backend.signMessage_eq_ok.mp hsign) permit.digest
  rw [← hrecover]
  constructor
  · rintro ⟨data', signature, -, hsubmitted', hsigner⟩
    rw [hsubmitted] at hsubmitted'
    cases hsubmitted'
    exact hsigner
  · intro hsigner
    exact ⟨data, _, hhashed, hsubmitted, hsigner⟩

/-- **When a permit verifies.** In both flows the submitted data is the data
that was hashed; the signature verifies on the digest of the contract if and
only if the digest is its own EIP-191 hash. -/
theorem permits_verify_iff (ideal : IdealEcdsa b recover) :
    (∀ attestation permit,
      signPermit b executor (registration executor ctx attestation) payload ctx = .ok permit →
      (Verifies recover (b.address executor.manager.teeSigner)
          (registration executor ctx attestation) permit ↔
        permit.digest = b.eip191HashMessage (toBytes permit.digest))) ∧
    ∀ permit, signPermit b executor (blockProof b executor payload ctx) payload ctx =
        .ok permit →
      (Verifies recover (b.address executor.manager.teeSigner)
          (blockProof b executor payload ctx) permit ↔
        permit.digest = b.eip191HashMessage (toBytes permit.digest)) :=
  ⟨fun _ _ h => verifies_iff_of_sameData ideal rfl rfl h,
    fun _ h => verifies_iff_of_sameData ideal rfl rfl h⟩

end

theorem recover_sign (signer : BuilderSigner) (hash digest : B256) :
    Counters.recover digest (Counters.sign signer hash).asBytes =
        some (Counters.address signer) ↔ digest = hash := by
  have hlength : (toBytes signer.secret).length = 32 := length_toBytes _
  have hkey : ofBigEndian (toBytes signer.secret) = signer.secret.toNat :=
    ofBigEndian_bigEndian signer.secret.isLt
  rw [Counters.recover, Counters.sign, List.drop_left' hlength, List.take_left' hlength, hkey,
    BitVec.ofNat_toNat, BitVec.setWidth_eq]
  constructor
  · intro h
    by_contra hne
    rw [if_neg fun hbytes => hne (toBytes_injective hbytes).symm] at h
    cases h
  · intro h
    rw [if_pos (by rw [h])]

theorem devnet_ideal : IdealEcdsa devnet Counters.recover := by
  intro signer hash signature h digest
  obtain rfl : Counters.sign signer hash = signature := Except.ok.inj h
  exact recover_sign signer hash digest

/-- A block proof on an empty payload. -/
theorem permits_verify_iff_devnet :
    let kind := blockProof devnet (devnetExecutor true) (Counters.payload ⟨0, 0⟩) default
    ∃ permit, signPermit devnet (devnetExecutor true) kind (Counters.payload ⟨0, 0⟩) default =
        .ok permit ∧
      (Verifies Counters.recover 7 kind permit ↔
        permit.digest = devnet.eip191HashMessage (toBytes permit.digest)) := by
  intro kind
  have hrun : (signPermit devnet (devnetExecutor true) kind (Counters.payload ⟨0, 0⟩)
      default).map SignedPermit.digest = .ok 1 := by decide +kernel
  obtain ⟨permit, hpermit, -⟩ := map_eq_ok.mp hrun
  exact ⟨permit, hpermit, (permits_verify_iff devnet_ideal).2 permit hpermit⟩

/-- The registry gives the digest 1. What is signed is the hash of the message
that holds it, and the signature recovers to nobody on 1. -/
theorem registration_not_verified :
    ∃ permit, signPermit devnet (devnetExecutor false)
        (registration (devnetExecutor false) default []) (Counters.payload ⟨0, 0⟩) default =
        .ok permit ∧
      ¬ Verifies Counters.recover 7 (registration (devnetExecutor false) default []) permit := by
  have hrun : (signPermit devnet (devnetExecutor false)
      (registration (devnetExecutor false) default []) (Counters.payload ⟨0, 0⟩) default).map
      SignedPermit.digest = .ok 1 := by decide +kernel
  obtain ⟨permit, hpermit, hdigest⟩ := map_eq_ok.mp hrun
  refine ⟨permit, hpermit, ?_⟩
  obtain ⟨-, -, -, hsign⟩ := signPermit_eq_ok.mp hpermit
  have hsignature : Counters.sign ⟨7⟩ (devnet.eip191HashMessage (toBytes permit.digest)) =
      permit.signature := Except.ok.inj (Backend.signMessage_eq_ok.mp hsign)
  rintro ⟨_, signature, -, hsubmitted, hrecover⟩
  cases hsubmitted
  rw [← hsignature, hdigest] at hrecover
  have heq := (recover_sign _ _ _).mp hrecover
  revert heq
  decide

end UnichainBuilder.Flashtestations.PermitSignature

import UnichainBuilder.Flashtestations.Execution

/-! # The flashtestations executor

`executor.rs`: the registration of the TEE and the proof of the block, each a
permit that the TEE key signs and the builder key submits. Contracts are asked
by transactions of the TEE key that are applied to a checkpoint of their own
and thrown away. -/
namespace UnichainBuilder.Flashtestations.Executor
open UnichainBuilder.Lib.Bytes UnichainBuilder.Lib.RustStd UnichainBuilder.Block
open UnichainBuilder.Flashtestations.Contracts UnichainBuilder.Flashtestations.Execution

/-- `service.rs`, without the provider of attestations. -/
structure FlashtestationsManager where
  /-- TEE service generated key. -/
  teeSigner : BuilderSigner
  /-- Builder key for the permit transactions. -/
  builderKey : BuilderSigner
  extraRegistrationData : Bytes := []
  registryAddress : Address
  builderPolicyAddress : Address
  builderProofVersion : UInt8
  enableBlockProofs : Bool
  deriving DecidableEq, Repr

structure FlashteststationsExecutor where
  manager : FlashtestationsManager

/-- Validate that the expected event was logged in the transaction execution. -/
def validateEventLogged {σ : Type} (payload : Checkpoint σ) (expectedTopic : B256) :
    Except Report Unit := do
  let results ← context payload.result "should not be a barrier checkpoint"
  match ← context results.head? "should have a first element" with
  | .success logs _ =>
    if (logs.flatMap Log.topics).contains expectedTopic then return ()
    else throw (.eventNotFound expectedTopic)
  -- a transaction that did not succeed is not asked for its logs
  | _ => return ()

namespace FlashteststationsExecutor
variable {σ : Type} (b : Backend σ) (self : FlashteststationsExecutor)

/-- Simulate a read-only contract call (using TEE signer). -/
def simulateContractCall (payload : Checkpoint σ) (ctx : BlockContext)
    (contractAddress : Address) (calldata : SolCall) : Except Report B256 := do
  let nonce ← b.nonceOf payload (b.address self.manager.teeSigner)
  let txParams : TransactionRequest := {
    chainId := ctx.chainId
    nonce
    gasLimit := ctx.parent.gasLimit
    maxFeePerGas := ctx.baseFee.toNat
    toAddress := contractAddress
    input := calldata }
  let signedTx ← b.buildSigned txParams self.manager.teeSigner
  let checkpoint ← b.apply payload signedTx
  let results ← context checkpoint.result "should not be a barrier checkpoint"
  match ← context results.head? "should have a first element" with
  | .success _ output =>
    context (abiDecodeReturns output) "could not decode output from contract call"
  | .revert output => throw (.transactionReverted output)
  | .halt reason => throw (.transactionHalted reason)

/-- The request that the builder key signs. -/
def builderRequest (ctx : BlockContext) (contractAddress : Address) (calldata : SolCall)
    (nonce : UInt64) : TransactionRequest where
  sender := some (b.address self.manager.builderKey)
  chainId := ctx.chainId
  nonce
  gasLimit := ctx.parent.gasLimit
  maxFeePerGas := ctx.baseFee.toNat
  toAddress := contractAddress
  input := calldata

/-- Execute a state-changing contract transaction (using builder signer). -/
def executeTransaction (payload : Checkpoint σ) (ctx : BlockContext)
    (contractAddress : Address) (calldata : SolCall) : Except Report (Checkpoint σ) := do
  let nonce ← b.nonceOf payload (b.address self.manager.builderKey)
  let signedTx ← b.buildSigned (self.builderRequest b ctx contractAddress calldata nonce)
    self.manager.builderKey
  (b.apply payload signedTx).mapError (.wrap "failed to write tx")

/-- Asked of the registry, for both permits. -/
def fetchPermitNonce (payload : Checkpoint σ) (ctx : BlockContext) : Except Report U256 :=
  self.simulateContractCall b payload ctx self.manager.registryAddress
    (.permit (.nonces (b.address self.manager.teeSigner)))

/-- The deadline of a registration. -/
def deadline (ctx : BlockContext) : U256 := BitVec.ofNat 256 ctx.timestamp.toNat

/-! ## Registration -/

def computeRegistrationHash (payload : Checkpoint σ) (ctx : BlockContext) (attestation : Bytes)
    (permitNonce : U256) : Except Report B256 :=
  self.simulateContractCall b payload ctx self.manager.registryAddress
    (.registry (.computeStructHash attestation self.manager.extraRegistrationData permitNonce
      (deadline ctx)))

def hashRegistrationMessage (payload : Checkpoint σ) (ctx : BlockContext) (structHash : B256) :
    Except Report B256 :=
  self.simulateContractCall b payload ctx self.manager.registryAddress
    (.registry (.hashTypedDataV4 structHash))

def submitRegistration (payload : Checkpoint σ) (ctx : BlockContext) (attestation : Bytes)
    (permitNonce : U256) (signature : Signature) : Except Report (Checkpoint σ) := do
  let payload ← self.executeTransaction b payload ctx self.manager.registryAddress
    (.registry (.permitRegisterTEEService attestation self.manager.extraRegistrationData
      permitNonce (deadline ctx) signature.asBytes))
  validateEventLogged payload TEEServiceRegistered.signatureHash
  return payload

def addPermitTransaction (payload : Checkpoint σ) (ctx : BlockContext) (attestation : Bytes) :
    Except Report (Checkpoint σ) := do
  let permitNonce ← self.fetchPermitNonce b payload ctx
  let structHash ← self.computeRegistrationHash b payload ctx attestation permitNonce
  let hashTypedData ← self.hashRegistrationMessage b payload ctx structHash
  let registrationPermitSignature ← b.signMessage self.manager.teeSigner hashTypedData
  self.submitRegistration b payload ctx attestation permitNonce registrationPermitSignature

/-! ## Block proof -/

/-- What the block proof commits to. -/
def blockData (payload : Checkpoint σ) (ctx : BlockContext) : BlockData where
  parentHash := ctx.parent.parentHash
  blockNumber := BitVec.ofNat 256 ctx.number.toNat
  timestamp := BitVec.ofNat 256 ctx.timestamp.toNat
  transactionHashes := (b.transactions payload).map fun tx => b.keccak256 (b.encode2718 tx)

def computeBlockContentHash (payload : Checkpoint σ) (ctx : BlockContext) : B256 :=
  b.keccak256 (blockData b payload ctx).abiEncode

def computeBlockProofHash (payload : Checkpoint σ) (ctx : BlockContext) (blockContentHash : B256)
    (permitNonce : U256) : Except Report B256 :=
  self.simulateContractCall b payload ctx self.manager.builderPolicyAddress
    (.policy (.computeStructHash self.manager.builderProofVersion blockContentHash permitNonce))

def hashBlockProofMessage (payload : Checkpoint σ) (ctx : BlockContext) (structHash : B256) :
    Except Report B256 :=
  self.simulateContractCall b payload ctx self.manager.builderPolicyAddress
    (.policy (.getHashedTypeDataV4 structHash))

def submitBlockProof (payload : Checkpoint σ) (ctx : BlockContext) (blockContentHash : B256)
    (permitNonce : U256) (signature : Signature) : Except Report (Checkpoint σ) := do
  let payload ← self.executeTransaction b payload ctx self.manager.builderPolicyAddress
    (.policy (.permitVerifyBlockBuilderProof self.manager.builderProofVersion blockContentHash
      permitNonce signature.asBytes))
  validateEventLogged payload BlockBuilderProofVerified.signatureHash
  return payload

def addBlockProofTransaction (payload : Checkpoint σ) (ctx : BlockContext) :
    Except Report (Checkpoint σ) := do
  let permitNonce ← self.fetchPermitNonce b payload ctx
  let blockContentHash := computeBlockContentHash b payload ctx
  let structHash ← self.computeBlockProofHash b payload ctx blockContentHash permitNonce
  let hashTypedData ← self.hashBlockProofMessage b payload ctx structHash
  let signature ← b.signMessage self.manager.teeSigner hashTypedData
  self.submitBlockProof b payload ctx blockContentHash permitNonce signature

/-- Build and submit flashtestation transactions (TEE registration + optional
block proof). -/
def addTransactions (payload : Checkpoint σ) (ctx : BlockContext) (attestation : Bytes) :
    Except Report (Checkpoint σ) := do
  let payload ← self.addPermitTransaction b payload ctx attestation
  if self.manager.enableBlockProofs then self.addBlockProofTransaction b payload ctx
  else return payload

end FlashteststationsExecutor

/-! ## A chain to try it on -/

/-- The nonces of the TEE address at the two contracts. -/
structure Counters where
  registry : U256
  policy : U256
  deriving DecidableEq, Repr

namespace Counters

def registryAddress : Address := 1

def policyAddress : Address := 2

/-- A signature names its key and the hash that it signs. -/
def sign (signer : BuilderSigner) (hash : B256) : Signature :=
  ⟨toBytes signer.secret ++ toBytes hash⟩

def address (signer : BuilderSigner) : Address := BitVec.ofNat 160 signer.secret.toNat

def recover (digest : B256) (signature : Bytes) : Option Address :=
  if signature.drop 32 = toBytes digest then
    some (address ⟨BitVec.ofNat 256 (ofBigEndian (signature.take 32))⟩)
  else none

/-- The contract takes a permit with its current nonce and a signature of the
digest by the TEE key. -/
def permit (current nonce : U256) (signature : Bytes) (event : B256) : Option ExecutionResult :=
  if nonce = current ∧ recover 1 signature = some 7 then some (.success [⟨[event]⟩] []) else none

def call (s : Counters) (contract : Address) : SolCall → ExecutionResult × Counters
  | .permit (.nonces _) =>
    (.success [] (toBytes (if contract = registryAddress then s.registry else s.policy)), s)
  | .registry (.computeStructHash ..) | .policy (.computeStructHash ..) =>
    (.success [] (toBytes (1 : B256)), s)
  | .registry (.hashTypedDataV4 hash) | .policy (.getHashedTypeDataV4 hash) =>
    (.success [] (toBytes hash), s)
  | .registry (.permitRegisterTEEService _ _ nonce _ signature) =>
    match permit s.registry nonce signature TEEServiceRegistered.signatureHash with
    | some result => (result, { s with registry := s.registry + 1 })
    | none => (.revert [], s)
  | .policy (.permitVerifyBlockBuilderProof _ _ nonce signature) =>
    match permit s.policy nonce signature BlockBuilderProofVerified.signatureHash with
    | some result => (result, { s with policy := s.policy + 1 })
    | none => (.revert [], s)

end Counters

/-- Every struct hash is 1 and its own digest; `keccak256` gives what the
EIP-191 message with the digest 1 hashes to. -/
def devnet : Backend Counters where
  keccak256 _ := 0xc9798da569c6ded6bd4b17373ef332b7c84d68cdec3f420f583dcd7b441ae31d
  transactions := Checkpoint.ownTransactions
  address := Counters.address
  signHash signer hash := .ok (Counters.sign signer hash)
  signTransaction _ _ := .ok ⟨[]⟩
  encodeSigned request _ := [UInt8.ofNat request.nonce.toNat]
  nonce _ _ := .ok 0
  execute s
    | .signed request _ _ => .ok (s.call request.toAddress request.input)
    | .received .. => .ok (.success [] [], s)

/-- The executor with the TEE key 7 and the builder key 8. -/
def devnetExecutor (enableBlockProofs : Bool) : FlashteststationsExecutor where
  manager := {
    teeSigner := ⟨7⟩
    builderKey := ⟨8⟩
    registryAddress := Counters.registryAddress
    builderPolicyAddress := Counters.policyAddress
    builderProofVersion := 1
    enableBlockProofs }

/-- An empty payload on a chain with these nonces. -/
def Counters.payload (s : Counters) : Checkpoint Counters := ⟨s, [], s⟩

end UnichainBuilder.Flashtestations.Executor

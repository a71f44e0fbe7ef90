import UnichainBuilder.Checkpoints
import UnichainBuilder.Timing

/-! # The publishing step

`PublishFlashblock` of `publish.rs`: the pipeline step that sends the
unpublished part of the payload to the websocket sink and seals it behind a
barrier. What the payload library and the sink answer during one call is an
input of the call (`StepEnv`). -/
namespace UnichainBuilder.Publish
open UnichainBuilder.Lib.RustStd UnichainBuilder.State UnichainBuilder.Block
open UnichainBuilder.Checkpoints UnichainBuilder.Timing

/-! ## The message -/

structure OpFlashblockPayloadBase where
  parentBeaconBlockRoot : B256
  parentHash : B256
  feeRecipient : Address
  prevRandao : B256
  blockNumber : UInt64
  gasLimit : UInt64
  timestamp : UInt64
  extraData : Bytes
  baseFeePerGas : U256
  deriving DecidableEq, Repr, Inhabited

structure Withdrawal where
  index : UInt64
  validatorIndex : UInt64
  address : Address
  amount : UInt64
  deriving DecidableEq, Repr

structure OpFlashblockPayloadDelta where
  stateRoot : B256
  receiptsRoot : B256
  logsBloom : Bloom
  gasUsed : UInt64
  blockHash : B256
  transactions : List Bytes
  withdrawals : List Withdrawal
  withdrawalsRoot : B256
  blobGasUsed : Option UInt64
  deriving DecidableEq, Repr, Inhabited

structure OpFlashblockPayloadMetadata where
  blockNumber : UInt64
  newAccountBalances : List (Address × U256)
  receipts : List (B256 × Bytes)
  deriving DecidableEq, Repr, Inhabited

structure OpFlashblockPayload where
  base : Option OpFlashblockPayloadBase
  diff : OpFlashblockPayloadDelta
  payloadId : PayloadId
  index : UInt64
  metadata : OpFlashblockPayloadMetadata
  deriving DecidableEq, Repr, Inhabited

/-! ## What a call gets from outside -/

structure SealedBlock where
  stateRoot : B256
  receiptsRoot : B256
  logsBloom : Bloom
  gasUsed : UInt64
  hash : B256
  withdrawalsRoot : Option B256
  deriving DecidableEq, Repr, Inhabited

abbrev PayloadBuilderError := String
abbrev IoError := String

/-- The answers of `build_payload`, `blob_fields` and `WebSocketSink::publish`
during one call of the step, and the clock at its `Instant::now`. -/
structure StepEnv where
  buildPayload : Except PayloadBuilderError SealedBlock
  blobFields : Option UInt64 × Option UInt64
  publish : Except IoError Nat
  now : Instant

/-- A call whose payload builds, with the given answer of the sink. -/
def StepEnv.withSink (publish : Except IoError Nat) : StepEnv where
  buildPayload := .ok { (default : SealedBlock) with withdrawalsRoot := some 0 }
  blobFields := (none, none)
  publish
  now := default

/-- `ControlFlow` of the pipeline; `brk` is its `Break`. -/
inductive ControlFlow (α : Type)
  | ok (payload : α)
  | brk (payload : α)

def ControlFlow.payload {α : Type} : ControlFlow α → α
  | .ok p => p
  | .brk p => p

@[simp] theorem ControlFlow.payload_ok {α : Type} (p : α) : (ControlFlow.ok p).payload = p := rfl

@[simp] theorem ControlFlow.payload_brk {α : Type} (p : α) : (ControlFlow.brk p).payload = p := rfl

/-! ## The step -/

structure PublishFlashblock where
  blockBase : Option OpFlashblockPayloadBase := none
  metrics : Metrics := {}
  times : Times := {}
  deriving DecidableEq, Repr, Inhabited

/-- What a call leaves behind: the step's own state, its answer to the
pipeline and the message the sink accepted. -/
structure StepResult (Tx : Type) where
  publisher : PublishFlashblock
  flow : ControlFlow (Payload Tx)
  sent : Option OpFlashblockPayload

namespace PublishFlashblock
variable {Tx : Type}

/-- The checkpoints of the current flashblock. -/
def unpublishedPayload (payload : Payload Tx) : Span Tx :=
  let currentFlashblockNumber := payload.context
  (payload.historySinceFirstContext currentFlashblockNumber).getD payload.history

def capturePayloadMetrics (metrics : Metrics) (span : Span Tx) : Metrics :=
  { metrics with
    blocksTotal := metrics.blocksTotal + 1
    gasPerBlock := record metrics.gasPerBlock (Span.gasUsed span)
    blobGasPerBlock := record metrics.blobGasPerBlock (Span.blobGasUsed span)
    txsPerBlock := record metrics.txsPerBlock (Span.transactions span).length
    bundlesPerBlock := record metrics.bundlesPerBlock (span.filter Checkpoint.isBundle).length }

/-- The base that `before_job` computes from the block context. -/
def computeBase (ctx : BlockContext) : OpFlashblockPayloadBase where
  parentBeaconBlockRoot := ctx.attributes.parentBeaconBlockRoot.getD 0
  parentHash := ctx.parent.hash
  feeRecipient := ctx.coinbase
  prevRandao := ctx.attributes.prevRandao
  blockNumber := ctx.number
  gasLimit := ctx.attributes.gasLimit.getD ctx.parent.gasLimit
  timestamp := ctx.timestamp
  extraData := ctx.extraData
  baseFeePerGas := BitVec.ofNat 256 ctx.baseFee.toNat

def beforeJob (self : PublishFlashblock) (ctx : BlockContext) (now : Instant) :
    PublishFlashblock :=
  let (times, metrics) := self.times.onJobStarted self.metrics now
  { blockBase := some (computeBase ctx), times, metrics }

def afterJob (self : PublishFlashblock) (now : Instant) : PublishFlashblock :=
  let (times, metrics) := self.times.onJobEnded self.metrics now
  { blockBase := none, times, metrics }

variable [Encodable2718 Tx]

/-- The message of one call, given the base it carries. -/
def message (payload : Payload Tx) (ctx : BlockContext) (sealedBlock : SealedBlock)
    (withdrawalsRoot : B256) (blobGasUsed : Option UInt64)
    (base : Option OpFlashblockPayloadBase) : OpFlashblockPayload where
  base
  diff := {
    stateRoot := sealedBlock.stateRoot
    receiptsRoot := sealedBlock.receiptsRoot
    logsBloom := sealedBlock.logsBloom
    gasUsed := sealedBlock.gasUsed
    blockHash := sealedBlock.hash
    transactions := (Span.transactions (unpublishedPayload payload)).map encoded2718
    withdrawals := []
    withdrawalsRoot
    blobGasUsed }
  payloadId := ctx.payloadId
  index := payload.context.index
  metadata := { blockNumber := ctx.number, newAccountBalances := [], receipts := [] }

def step (self : PublishFlashblock) (payload : Payload Tx) (ctx : BlockContext) (env : StepEnv) :
    Except Panic (StepResult Tx) := do
  match env.buildPayload with
  | .error _ => return { publisher := self, flow := .brk payload, sent := none }
  | .ok sealedBlock =>
    -- `take()` empties the slot before the sink has answered
    let base := self.blockBase
    let self := { self with blockBase := none }
    let (_, blobGasUsed) := env.blobFields
    let withdrawalsRoot ← expect sealedBlock.withdrawalsRoot "withdrawals_root is present"
    let flashblock := message payload ctx sealedBlock withdrawalsRoot blobGasUsed base
    match env.publish with
    | .error _ =>
      let metrics := { self.metrics with
        websocketPublishErrorsTotal := self.metrics.websocketPublishErrorsTotal + 1 }
      return { publisher := { self with metrics }, flow := .ok payload, sent := none }
    | .ok _ =>
      let (times, metrics) := self.times.onPublishedBlock self.metrics env.now
      let metrics := capturePayloadMetrics metrics (unpublishedPayload payload)
      let nextFlashblockNumber ← payload.context.next
      return {
        publisher := { self with times, metrics }
        flow := .ok (payload.barrierWithContext nextFlashblockNumber)
        sent := some flashblock }

/-- The three ways a call returns. The state after a rejected message keeps
nothing of the base that was taken for it. -/
inductive Returns (self : PublishFlashblock) (payload : Payload Tx) (ctx : BlockContext)
    (env : StepEnv) : StepResult Tx → Prop
  | buildFailed {e : PayloadBuilderError} (build : env.buildPayload = .error e) :
      Returns self payload ctx env { publisher := self, flow := .brk payload, sent := none }
  | rejected {sealedBlock : SealedBlock} {withdrawalsRoot : B256} {e : IoError}
      (build : env.buildPayload = .ok sealedBlock)
      (root : sealedBlock.withdrawalsRoot = some withdrawalsRoot)
      (publish : env.publish = .error e) :
      Returns self payload ctx env {
        publisher := { self with
          blockBase := none
          metrics := { self.metrics with
            websocketPublishErrorsTotal := self.metrics.websocketPublishErrorsTotal + 1 } }
        flow := .ok payload
        sent := none }
  | accepted {sealedBlock : SealedBlock} {withdrawalsRoot : B256} {size : Nat}
      {next : FlashblockNumber}
      (build : env.buildPayload = .ok sealedBlock)
      (root : sealedBlock.withdrawalsRoot = some withdrawalsRoot)
      (publish : env.publish = .ok size)
      (next_eq : payload.context.next = .ok next) :
      Returns self payload ctx env {
        publisher := {
          blockBase := none
          times := (self.times.onPublishedBlock self.metrics env.now).1
          metrics := capturePayloadMetrics (self.times.onPublishedBlock self.metrics env.now).2
            (unpublishedPayload payload) }
        flow := .ok (payload.barrierWithContext next)
        sent := some (message payload ctx sealedBlock withdrawalsRoot env.blobFields.2
          self.blockBase) }

/-- Everything a call that does not panic can do. -/
theorem returns_of_step {self : PublishFlashblock} {payload : Payload Tx} {ctx : BlockContext}
    {env : StepEnv} {r : StepResult Tx} (h : self.step payload ctx env = .ok r) :
    Returns self payload ctx env r := by
  unfold step at h
  cases build : env.buildPayload with
  | error e =>
    rw [build] at h
    cases h
    exact .buildFailed build
  | ok sealedBlock =>
    cases root : sealedBlock.withdrawalsRoot with
    | none => simp [build, root, expect, bind, Except.bind] at h
    | some withdrawalsRoot =>
      cases publish : env.publish with
      | error e =>
        simp only [build, root, publish, expect, bind, Except.bind] at h
        cases h
        exact .rejected build root publish
      | ok size =>
        cases next_eq : payload.context.next with
        | error p => simp [build, root, publish, next_eq, expect, bind, Except.bind] at h
        | ok next =>
          simp only [build, root, publish, next_eq, expect, bind, Except.bind] at h
          cases h
          exact .accepted build root publish next_eq

end PublishFlashblock
end UnichainBuilder.Publish

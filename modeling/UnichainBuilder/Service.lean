import Mathlib.Data.List.Nodup
import UnichainBuilder.Lib.Bytes
import UnichainBuilder.Lib.Text
import UnichainBuilder.PublishedLog
import UnichainBuilder.WebSocketSink

/-! # Jobs, sink and peers together

`PublishFlashblock` holds the sink that its messages go to, and every payload
job calls the same step. The jobs may overlap: each has a payload of its own,
the state of the step and the sink are shared. The loops of the sink take their
turns in between. Calls of the step are taken one at a time. -/
namespace UnichainBuilder.Service
open UnichainBuilder.Lib.RustStd UnichainBuilder.Lib.Runs UnichainBuilder.Lib.CommitLog
open UnichainBuilder.Lib.Broadcast UnichainBuilder.Lib.Bytes UnichainBuilder.Lib.Text
open UnichainBuilder.Block UnichainBuilder.State
open UnichainBuilder.Checkpoints UnichainBuilder.Publish UnichainBuilder.Job
open UnichainBuilder.PublishedLog UnichainBuilder.WebSocketSink

abbrev Utf8Bytes := Bytes

/-- `serde_json` at `OpFlashblockPayload`: what is written reads as what it was. -/
structure PayloadJson where
  toString : OpFlashblockPayload → Except IoError Utf8Bytes
  fromStr : Utf8Bytes → Option OpFlashblockPayload
  fromStr_toString : ∀ {m text}, toString m = .ok text → fromStr text = some m

/-- The flashblocks of one payload among some texts. -/
def PayloadJson.flashblocksOf (json : PayloadJson) (id : PayloadId) (texts : List Utf8Bytes) :
    List OpFlashblockPayload :=
  (texts.filterMap json.fromStr).filter fun m => m.payloadId = id

namespace PayloadJson
variable {json : PayloadJson} {id : PayloadId} {texts more : List Utf8Bytes}

theorem flashblocksOf_append :
    json.flashblocksOf id (texts ++ more) =
      json.flashblocksOf id texts ++ json.flashblocksOf id more := by
  simp [flashblocksOf]

theorem flashblocksOf_concat {text : Utf8Bytes} {m : OpFlashblockPayload}
    (h : json.toString m = .ok text) :
    json.flashblocksOf id (texts ++ [text]) =
      json.flashblocksOf id texts ++ if m.payloadId = id then [m] else [] := by
  rw [flashblocksOf_append]
  congr 1
  by_cases hid : m.payloadId = id <;> simp [flashblocksOf, json.fromStr_toString h, hid]

theorem flashblocksOf_prefix (h : texts <+: more) :
    json.flashblocksOf id texts <+: json.flashblocksOf id more := by
  obtain ⟨rest, rfl⟩ := h
  rw [flashblocksOf_append]
  exact List.prefix_append _ _

theorem flashblocksOf_sublist (h : texts.Sublist more) :
    (json.flashblocksOf id texts).Sublist (json.flashblocksOf id more) :=
  (h.filterMap _).filter _

/-! ### The text of a message -/

def quote (text : List Char) : List Char := Char.ofNat 34 :: text ++ [Char.ofNat 34]

def hex (width n : Nat) : List Char := quote ('0' :: 'x' :: encode (bigEndian width n))

def hexBytes (bytes : Bytes) : List Char := quote ('0' :: 'x' :: encode bytes)

def quantity (n : Nat) : List Char := quote ('0' :: 'x' :: encodeNat n)

def array (items : List (List Char)) : List Char := '[' :: [','].intercalate items ++ [']']

def object (members : List (List Char × List Char)) : List Char :=
  Char.ofNat 123 :: [','].intercalate (members.map fun m => quote m.1 ++ ':' :: m.2) ++
    [Char.ofNat 125]

def baseText (base : OpFlashblockPayloadBase) : List Char :=
  object [("parent_beacon_block_root".toList, hex 32 base.parentBeaconBlockRoot.toNat),
    ("parent_hash".toList, hex 32 base.parentHash.toNat),
    ("fee_recipient".toList, hex 20 base.feeRecipient.toNat),
    ("prev_randao".toList, hex 32 base.prevRandao.toNat),
    ("block_number".toList, quantity base.blockNumber.toNat),
    ("gas_limit".toList, quantity base.gasLimit.toNat),
    ("timestamp".toList, quantity base.timestamp.toNat),
    ("extra_data".toList, hexBytes base.extraData),
    ("base_fee_per_gas".toList, quantity base.baseFeePerGas.toNat)]

def withdrawalText (w : Withdrawal) : List Char :=
  object [("index".toList, quantity w.index.toNat),
    ("validatorIndex".toList, quantity w.validatorIndex.toNat),
    ("address".toList, hex 20 w.address.toNat), ("amount".toList, quantity w.amount.toNat)]

def diffText (diff : OpFlashblockPayloadDelta) : List Char :=
  object ([("state_root".toList, hex 32 diff.stateRoot.toNat),
    ("receipts_root".toList, hex 32 diff.receiptsRoot.toNat),
    ("logs_bloom".toList, hex 256 diff.logsBloom.toNat),
    ("gas_used".toList, quantity diff.gasUsed.toNat),
    ("block_hash".toList, hex 32 diff.blockHash.toNat),
    ("transactions".toList, array (diff.transactions.map hexBytes)),
    ("withdrawals".toList, array (diff.withdrawals.map withdrawalText)),
    ("withdrawals_root".toList, hex 32 diff.withdrawalsRoot.toNat)] ++
    diff.blobGasUsed.toList.map fun gas => ("blob_gas_used".toList, quantity gas.toNat))

def metadataText (metadata : OpFlashblockPayloadMetadata) : List Char :=
  object [("block_number".toList, Nat.toDigits 10 metadata.blockNumber.toNat),
    ("new_account_balances".toList, object (metadata.newAccountBalances.map fun b =>
      ('0' :: 'x' :: encode (bigEndian 20 b.1.toNat), quantity b.2.toNat))),
    ("receipts".toList, object (metadata.receipts.map fun r =>
      ('0' :: 'x' :: encode (bigEndian 32 r.1.toNat), hexBytes r.2)))]

def text (m : OpFlashblockPayload) : Utf8Bytes :=
  utf8 (object ([("payload_id".toList, hex 8 m.payloadId.toNat),
    ("index".toList, Nat.toDigits 10 m.index.toNat)] ++
    (m.base.toList.map fun base => ("base".toList, baseText base)) ++
    [("diff".toList, diffText m.diff), ("metadata".toList, metadataText m.metadata)]))

/-- The serializer as far as some messages go, which differ early in their texts. -/
def known (messages : List OpFlashblockPayload)
    (hdiffer : (messages.map fun m => (text m).take 64).Nodup) : PayloadJson where
  toString m := if m ∈ messages then .ok (text m) else .error "unknown"
  fromStr utf8Bytes := messages.find? fun m => text m = utf8Bytes
  fromStr_toString := by
    intro m utf8Bytes h
    split at h
    · rename_i hmem
      cases h
      cases hfind : messages.find? fun m' => text m' = text m with
      | none => simpa using List.find?_eq_none.mp hfind m hmem
      | some m' =>
        have hsame : text m' = text m := by
          have hfound := List.find?_some hfind
          exact of_decide_eq_true hfound
        rw [List.inj_on_of_nodup_map hdiffer (List.mem_of_find?_eq_some hfind) hmem
          (congrArg (List.take 64) hsame)]
    · cases h

end PayloadJson

/-- What the payload library and the clock answer during a call of the step. -/
structure Call where
  buildPayload : Except PayloadBuilderError SealedBlock
  blobFields : Option UInt64 × Option UInt64
  now : Instant

def Call.env (call : Call) (publish : Except IoError Nat) : StepEnv where
  buildPayload := call.buildPayload
  blobFields := call.blobFields
  publish
  now := call.now

/-- A call whose payload builds. -/
def Call.building : Call where
  buildPayload := .ok { (default : SealedBlock) with withdrawalsRoot := some 0 }
  blobFields := (none, none)
  now := default

/-- A payload job. `openedAt` and `accepted` are notes of an observer: what the
channel had carried at `before_job`, and the messages that the sink took. -/
structure PayloadJob (Tx : Type) where
  ctx : BlockContext
  payload : Payload Tx
  running : Bool := true
  openedAt : Nat
  accepted : List OpFlashblockPayload := []

/-- The step, its sink and the jobs that have begun. -/
structure Node (Tx : Type) where
  publisher : PublishFlashblock
  sink : Sink Utf8Bytes
  jobs : List (PayloadJob Tx)

inductive Event (Tx : Type)
  | beforeJob (ctx : BlockContext) (now : Instant) (prologue : List (Extension Tx))
  | rewrite (job : Nat) (extensions : List (Extension Tx))
  | step (job : Nat) (call : Call)
  | afterJob (job : Nat) (now : Instant)
  /-- Anything that happens to the sink but for `publish`. -/
  | transport (event : WebSocketSink.Event Utf8Bytes)

/-- What `publish` returns. -/
def answer (sink : Sink Utf8Bytes) : Except IoError Utf8Bytes → Except IoError Nat
  | .ok utf8Bytes =>
    if sink.hasReceivers then .ok utf8Bytes.length else .error "channel closed"
  | .error e => .error e

namespace PayloadJob
variable {Tx : Type}

/-- The job as its own call of the step sees it. -/
def state (job : PayloadJob Tx) (publisher : PublishFlashblock) : JobState Tx where
  publisher
  payload := job.payload
  accepted := job.accepted

end PayloadJob

variable {Tx : Type} [Encodable2718 Tx]

/-- The message that a call hands to the sink, if it gets that far. -/
def flashblock (publisher : PublishFlashblock) (job : PayloadJob Tx) (call : Call) :
    Option OpFlashblockPayload :=
  match call.buildPayload with
  | .error _ => none
  | .ok sealedBlock => sealedBlock.withdrawalsRoot.map fun withdrawalsRoot =>
      PublishFlashblock.message job.payload job.ctx sealedBlock withdrawalsRoot call.blobFields.2
        publisher.blockBase

namespace Node

def new : Node Tx where
  publisher := {}
  sink := Sink.new broadcastCapacity
  jobs := []

def ids (s : Node Tx) : List PayloadId := s.jobs.map fun job => job.ctx.payloadId

/-- No other job builds a payload of the same id. -/
def Unique (s : Node Tx) (i : Nat) : Prop := ∀ k, s.ids[k]? = s.ids[i]? → k = i

/-- A turn of a running job. -/
def turn (s : Node Tx) (i : Nat) (f : PayloadJob Tx → Option (Node Tx)) :
    Option (Node Tx) :=
  match s.jobs[i]? with
  | some job => if job.running then f job else none
  | none => none

/-- The call returns with the answer of the sink; a panic ends the run. -/
def call (s : Node Tx) (i : Nat) (job : PayloadJob Tx) (sink : Sink Utf8Bytes) (env : StepEnv) :
    Option (Node Tx) :=
  match s.publisher.step job.payload job.ctx env with
  | .ok r => some {
      publisher := r.publisher
      sink
      jobs := s.jobs.set i { job with
        payload := r.flow.payload
        accepted := job.accepted ++ r.sent.toList } }
  | .error _ => none

def step (json : PayloadJson) (s : Node Tx) (i : Nat) (call : Call) (job : PayloadJob Tx) :
    Option (Node Tx) :=
  match flashblock s.publisher job call with
  | some message =>
    let serialized := json.toString message
    (s.sink.handle (.publish serialized)).bind fun sink =>
      s.call i job sink (call.env (answer s.sink serialized))
  -- the sink is not asked
  | none => s.call i job s.sink (call.env (.error ""))

def handle (json : PayloadJson) (s : Node Tx) : Event Tx → Option (Node Tx)
  | .beforeJob ctx now prologue => some { s with
      publisher := s.publisher.beforeJob ctx now
      jobs := s.jobs ++ [{
        ctx
        payload := Payload.new.extendAll prologue
        openedAt := s.sink.pipe.sent.length }] }
  | .rewrite i extensions => s.turn i fun job => some { s with
      jobs := s.jobs.set i { job with payload := job.payload.rewrite extensions } }
  | .step i call => s.turn i (s.step json i call)
  | .afterJob i now => s.turn i fun job => some { s with
      publisher := s.publisher.afterJob now
      jobs := s.jobs.set i { job with running := false } }
  | .transport (.publish _) => none
  | .transport event => (s.sink.handle event).map fun sink => { s with sink }

end Node

/-- What the sink does on its own adds nothing to the channel. -/
theorem pipe_of_handle {sink sink' : Sink Utf8Bytes} {event : WebSocketSink.Event Utf8Bytes}
    (unpublished : ∀ serialized, event ≠ .publish serialized)
    (h : sink.handle event = some sink') : sink'.pipe = sink.pipe := by
  cases event with
  | publish serialized => exact absurd rfl (unpublished serialized)
  | recv | sent | incoming | stopPeer =>
    obtain ⟨_, _, _, _, rfl⟩ := WebSocketSink.turn_eq_some h
    rfl
  | shutdown | drop =>
    cases h
    rfl
  | accept =>
    simp only [Sink.handle] at h
    split at h <;> cases h
    rfl
  | handshake ok =>
    simp only [Sink.handle] at h
    split at h
    · split at h <;> cases h <;> rfl
    · cases h
  | stopListener =>
    simp only [Sink.handle] at h
    split at h
    · split at h <;> cases h
      rfl
    · cases h

/-! ## What one event can do -/

/-- The transitions of the node. A call whose message the sink did not take
changes the step's own state only. -/
inductive Transition (json : PayloadJson) (s : Node Tx) : Event Tx → Node Tx → Prop
  | opened {ctx : BlockContext} {now : Instant} {prologue : List (Extension Tx)} :
      Transition json s (.beforeJob ctx now prologue) { s with
        publisher := s.publisher.beforeJob ctx now
        jobs := s.jobs ++ [{
          ctx
          payload := Payload.new.extendAll prologue
          openedAt := s.sink.pipe.sent.length }] }
  | rewritten {i : Nat} {job : PayloadJob Tx} {extensions : List (Extension Tx)}
      (get : s.jobs[i]? = some job) :
      Transition json s (.rewrite i extensions) { s with
        jobs := s.jobs.set i { job with payload := job.payload.rewrite extensions } }
  | buildFailed {i : Nat} {call : Call} {e : PayloadBuilderError}
      (build : call.buildPayload = .error e) : Transition json s (.step i call) s
  | rejected {i : Nat} {call : Call} {job : PayloadJob Tx} {message : OpFlashblockPayload}
      (get : s.jobs[i]? = some job) (handed : flashblock s.publisher job call = some message)
      (refused : s.sink.hasReceivers = false ∨ ∃ e, json.toString message = .error e) :
      Transition json s (.step i call) { s with
        publisher := { s.publisher with
          blockBase := none
          metrics := { s.publisher.metrics with
            websocketPublishErrorsTotal := s.publisher.metrics.websocketPublishErrorsTotal + 1 } } }
  | accepted {i : Nat} {call : Call} {job : PayloadJob Tx} {sealedBlock : SealedBlock}
      {withdrawalsRoot : B256} {next : FlashblockNumber} {text : Utf8Bytes}
      (get : s.jobs[i]? = some job)
      (handed : flashblock s.publisher job call = some (PublishFlashblock.message job.payload
        job.ctx sealedBlock withdrawalsRoot call.blobFields.2 s.publisher.blockBase))
      (serialized : json.toString (PublishFlashblock.message job.payload job.ctx sealedBlock
        withdrawalsRoot call.blobFields.2 s.publisher.blockBase) = .ok text)
      (published : s.sink.handle (.publish (.ok text)) =
        some { s.sink with pipe := s.sink.pipe.send text })
      (next_eq : job.payload.context.next = .ok next) :
      Transition json s (.step i call) {
        publisher := {
          blockBase := none
          times := (s.publisher.times.onPublishedBlock s.publisher.metrics call.now).1
          metrics := PublishFlashblock.capturePayloadMetrics
            (s.publisher.times.onPublishedBlock s.publisher.metrics call.now).2
            (PublishFlashblock.unpublishedPayload job.payload) }
        sink := { s.sink with pipe := s.sink.pipe.send text }
        jobs := s.jobs.set i { job with
          payload := job.payload.barrierWithContext next
          accepted := job.accepted ++ [PublishFlashblock.message job.payload job.ctx sealedBlock
            withdrawalsRoot call.blobFields.2 s.publisher.blockBase] } }
  | closed {i : Nat} {now : Instant} {job : PayloadJob Tx} (get : s.jobs[i]? = some job) :
      Transition json s (.afterJob i now) { s with
        publisher := s.publisher.afterJob now
        jobs := s.jobs.set i { job with running := false } }
  | transported {event : WebSocketSink.Event Utf8Bytes} {sink : Sink Utf8Bytes}
      (unpublished : ∀ serialized, event ≠ .publish serialized)
      (handle : s.sink.handle event = some sink) :
      Transition json s (.transport event) { s with sink }

namespace Node
variable {json : PayloadJson} {s t : Node Tx}

omit [Encodable2718 Tx] in
theorem turn_eq_some {i : Nat} {f : PayloadJob Tx → Option (Node Tx)} (h : s.turn i f = some t) :
    ∃ job, s.jobs[i]? = some job ∧ f job = some t := by
  unfold turn at h
  split at h
  · rename_i job hjob
    split at h
    · exact ⟨job, hjob, h⟩
    · cases h
  · cases h

theorem call_eq_some {i : Nat} {job : PayloadJob Tx} {sink : Sink Utf8Bytes} {env : StepEnv}
    (h : s.call i job sink env = some t) :
    ∃ r, s.publisher.step job.payload job.ctx env = .ok r ∧
      t = {
        publisher := r.publisher
        sink
        jobs := s.jobs.set i { job with
          payload := r.flow.payload
          accepted := job.accepted ++ r.sent.toList } } := by
  unfold call at h
  split at h
  · rename_i r hr
    cases h
    exact ⟨r, hr, rfl⟩
  · cases h

/-- What the sink does with a message, and what it answers. -/
theorem publish_cases {sink sink' : Sink Utf8Bytes} {serialized : Except IoError Utf8Bytes}
    (h : sink.handle (.publish serialized) = some sink') :
    (∃ text, serialized = .ok text ∧ sink' = { sink with pipe := sink.pipe.send text } ∧
        answer sink serialized = .ok text.length) ∨
      (sink.hasReceivers = false ∨ ∃ e, serialized = .error e) ∧ sink' = sink ∧
        ∃ e, answer sink serialized = .error e := by
  cases serialized with
  | ok text =>
    simp only [Sink.handle] at h
    split at h
    · cases h
    · split at h
      · rename_i hreceivers
        cases h
        exact .inl ⟨text, rfl, rfl, by simp [answer, hreceivers]⟩
      · rename_i hnone
        cases h
        exact .inr ⟨.inl (by simpa using hnone), rfl, "channel closed", by simp [answer, hnone]⟩
  | error e =>
    simp only [Sink.handle] at h
    split at h
    · cases h
    · cases h
      exact .inr ⟨.inr ⟨e, rfl⟩, rfl, e, rfl⟩

omit [Encodable2718 Tx] in
theorem set_self {i : Nat} {job : PayloadJob Tx} (get : s.jobs[i]? = some job) :
    s.jobs.set i job = s.jobs := by
  obtain ⟨hlt, rfl⟩ := List.getElem?_eq_some_iff.mp get
  exact List.set_getElem_self hlt

theorem transition_of_step {i : Nat} {call : Call} {job : PayloadJob Tx}
    (get : s.jobs[i]? = some job) (h : s.step json i call job = some t) :
    Transition json s (.step i call) t := by
  unfold step at h
  split at h
  · rename_i message hmessage
    obtain ⟨sink, hsink, hcall⟩ := Option.bind_eq_some_iff.mp h
    obtain ⟨r, hr, rfl⟩ := call_eq_some hcall
    rcases publish_cases hsink with ⟨text, htext, rfl, hanswer⟩ |
      ⟨hrefused, rfl, e, hanswer⟩
    · cases PublishFlashblock.returns_of_step hr with
      | buildFailed build =>
        have hbuild : call.buildPayload = .error _ := build
        simp [flashblock, hbuild] at hmessage
      | rejected build root publish =>
        rw [Call.env, hanswer] at publish
        cases publish
      | @accepted sealedBlock withdrawalsRoot size next build root publish next_eq =>
        have hbuild : call.buildPayload = .ok sealedBlock := build
        have hhanded : flashblock s.publisher job call = some (PublishFlashblock.message
            job.payload job.ctx sealedBlock withdrawalsRoot call.blobFields.2
            s.publisher.blockBase) := by
          simp [flashblock, hbuild, root]
        have hsame := hmessage.symm.trans hhanded
        cases hsame
        exact .accepted get hhanded htext (htext ▸ hsink) next_eq
    · cases PublishFlashblock.returns_of_step hr with
      | buildFailed build =>
        have hbuild : call.buildPayload = .error _ := build
        simp [flashblock, hbuild] at hmessage
      | rejected build root publish =>
        simp only [ControlFlow.payload_ok, Option.toList_none, List.append_nil, set_self get]
        exact .rejected get hmessage hrefused
      | accepted build root publish next_eq =>
        rw [Call.env, hanswer] at publish
        cases publish
  · rename_i hnone
    obtain ⟨r, hr, rfl⟩ := call_eq_some h
    cases PublishFlashblock.returns_of_step hr with
    | buildFailed build =>
      simp only [ControlFlow.payload_brk, Option.toList_none, List.append_nil, set_self get]
      exact .buildFailed build
    | rejected build root publish =>
      have hbuild : call.buildPayload = .ok _ := build
      simp [flashblock, hbuild, root] at hnone
    | accepted build root publish next_eq =>
      have hbuild : call.buildPayload = .ok _ := build
      simp [flashblock, hbuild, root] at hnone

/-- Everything one event can do. -/
theorem transition_of_handle {e : Event Tx} (h : s.handle json e = some t) :
    Transition json s e t := by
  cases e with
  | beforeJob ctx now prologue =>
    cases h
    exact .opened
  | rewrite i extensions =>
    obtain ⟨job, get, hf⟩ := turn_eq_some h
    cases hf
    exact .rewritten get
  | step i call =>
    obtain ⟨job, get, hf⟩ := turn_eq_some h
    exact transition_of_step get hf
  | afterJob i now =>
    obtain ⟨job, get, hf⟩ := turn_eq_some h
    cases hf
    exact .closed get
  | transport event =>
    have hmap : (∀ serialized, event ≠ .publish serialized) ∧
        (s.sink.handle event).map (fun sink => { s with sink }) = some t := by
      cases event with
      | publish serialized => cases h
      | _ => exact ⟨nofun, h⟩
    obtain ⟨sink, hsink, rfl⟩ := Option.map_eq_some_iff.mp hmap.2
    exact .transported hmap.1 hsink

end Node

end UnichainBuilder.Service

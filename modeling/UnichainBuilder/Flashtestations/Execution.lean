import UnichainBuilder.Checkpoints
import UnichainBuilder.Flashtestations.Contracts

/-! # What the executor gets from outside

Signers (`signer.rs` over alloy), transactions and payload checkpoints
(rblib, revm). What alloy, revm and the state provider answer is a `Backend`,
over chain states of any kind. A checkpoint is a value: applying a
transaction leaves the checkpoint it is applied to as it was. -/
namespace UnichainBuilder.Flashtestations.Execution
open UnichainBuilder.Lib.RustStd UnichainBuilder.Lib.Bytes UnichainBuilder.Block
open UnichainBuilder.Flashtestations.Contracts

/-- `eyre::Report`, down to what the code adds to it. -/
inductive Report
  /-- An error of a library, passed on by `?`. -/
  | source (text : String)
  | msg (text : String)
  | wrap (text : String) (cause : Report)
  | transactionReverted (output : Bytes)
  | transactionHalted (reason : String)
  | eventNotFound (expectedTopic : B256)
  deriving DecidableEq, Repr

/-- `Option::context`. -/
def context {α : Type} (x : Option α) (text : String) : Except Report α :=
  match x with
  | some a => .ok a
  | none => .error (.msg text)

theorem context_eq_ok {α : Type} {x : Option α} {text : String} {a : α} :
    context x text = .ok a ↔ x = some a := by
  cases x <;> simp [context]

/-! ## Transactions and their execution -/

structure BuilderSigner where
  secret : B256
  deriving DecidableEq, Repr

/-- The 65 bytes of an ECDSA signature. -/
structure Signature where
  asBytes : Bytes
  deriving DecidableEq, Repr

structure TransactionRequest where
  sender : Option Address := none
  chainId : UInt64
  nonce : UInt64
  gasLimit : UInt64
  maxFeePerGas : Nat
  toAddress : Address
  input : SolCall
  deriving DecidableEq, Repr

inductive Transaction
  /-- Built from a request and signed here. -/
  | signed (request : TransactionRequest) (signature : Signature) (signer : Address)
  /-- Any other transaction of a payload, by its encoding. -/
  | received (encoded : Bytes) (signer : Address)
  deriving DecidableEq, Repr

def Transaction.signer : Transaction → Address
  | .signed _ _ signer => signer
  | .received _ signer => signer

/-- The call of a transaction that was built here. -/
def Transaction.call : Transaction → Option SolCall
  | .signed request _ _ => some request.input
  | .received _ _ => none

structure Log where
  topics : List B256
  deriving DecidableEq, Repr

inductive ExecutionResult
  | success (logs : List Log) (output : Bytes)
  | revert (output : Bytes)
  | halt (reason : String)
  deriving DecidableEq, Repr

/-- Applied transactions, or the mark that earlier ones stay as they are. -/
inductive Mutation
  | barrier
  | executed (results : List (Transaction × ExecutionResult))
  deriving DecidableEq, Repr

/-- The chain at the parent block, what the payload did to it, oldest first,
and the chain after that. -/
structure Checkpoint (σ : Type) where
  parent : σ
  history : List Mutation
  state : σ
  deriving DecidableEq, Repr

namespace Mutation

def results : Mutation → List (Transaction × ExecutionResult)
  | .barrier => []
  | .executed results => results

end Mutation

namespace Checkpoint
variable {σ : Type}

/-- Every transaction so far with its result. -/
def executed (self : Checkpoint σ) : List (Transaction × ExecutionResult) :=
  self.history.flatMap Mutation.results

/-- The transactions of the payload so far. -/
def allTransactions (self : Checkpoint σ) : List Transaction := self.executed.map Prod.fst

/-- Those of the last checkpoint alone. -/
def ownTransactions (self : Checkpoint σ) : List Transaction :=
  (self.history.getLast?.elim [] Mutation.results).map Prod.fst

/-- The results of the last checkpoint; a barrier has none. -/
def result (self : Checkpoint σ) : Option (List ExecutionResult) :=
  match self.history.getLast? with
  | some (.executed results) => some (results.map Prod.snd)
  | _ => none

def push (self : Checkpoint σ) (tx : Transaction) (result : ExecutionResult) (state : σ) :
    Checkpoint σ where
  parent := self.parent
  history := self.history ++ [.executed [(tx, result)]]
  state

variable (c : Checkpoint σ) (tx : Transaction) (r : ExecutionResult) (s : σ)

@[simp] theorem executed_push : (c.push tx r s).executed = c.executed ++ [(tx, r)] := by
  simp [executed, push, Mutation.results]

@[simp] theorem allTransactions_push :
    (c.push tx r s).allTransactions = c.allTransactions ++ [tx] := by
  simp [allTransactions]

@[simp] theorem ownTransactions_push : (c.push tx r s).ownTransactions = [tx] := by
  simp [ownTransactions, push, Mutation.results]

theorem ownTransactions_sublist : c.ownTransactions.Sublist c.allTransactions := by
  unfold ownTransactions allTransactions executed
  cases hlast : c.history.getLast? with
  | none => exact List.nil_sublist _
  | some m =>
    have hmem : m.results ∈ c.history.map Mutation.results :=
      List.mem_map_of_mem (List.mem_of_getLast? hlast)
    rw [List.flatMap_def]
    exact (List.sublist_flatten_of_mem hmem).map Prod.fst

@[simp] theorem result_push : (c.push tx r s).result = some [r] := by
  simp [result, push]

end Checkpoint

/-! ## The payload behind a checkpoint -/

/-- The checkpoint is where a payload has got to: what it has applied is what the
checkpoints of the payload hold behind the root. -/
structure TipOf {σ : Type} (p : Checkpoints.Payload Transaction) (c : Checkpoint σ) : Prop where
  history : p.history.map Checkpoints.Checkpoint.transactions =
    [] :: c.history.map fun m => m.results.map Prod.fst

namespace TipOf
variable {σ : Type} {p : Checkpoints.Payload Transaction} {c : Checkpoint σ}

theorem new (s : σ) : TipOf Checkpoints.Payload.new ⟨s, [], s⟩ := ⟨rfl⟩

/-- To apply a transaction is to extend the payload. -/
theorem push (h : TipOf p c) (tx : Transaction) (result : ExecutionResult) (state : σ)
    (gasUsed blobGasUsed : UInt64) :
    TipOf (p.extend (.apply (.transaction tx) gasUsed blobGasUsed)) (c.push tx result state) := by
  refine ⟨?_⟩
  rw [Checkpoints.Payload.extend, Checkpoints.Payload.history_push, List.map_append, h.history,
    Checkpoint.push, List.map_append]
  rfl

theorem transactions_eq (h : TipOf p c) : p.transactions = c.allTransactions := by
  have hflat := congrArg List.flatten h.history
  rw [List.flatten_cons, List.nil_append, ← List.flatMap_def, ← List.flatMap_def] at hflat
  rw [Checkpoint.allTransactions, Checkpoint.executed, List.map_flatMap]
  exact hflat

/-- The library lists the transactions of a checkpoint one by one. -/
theorem tip_transactions_eq (h : TipOf p c) : p.tip.transactions = c.ownTransactions := by
  have hlast := congrArg List.getLast? h.history
  rw [List.getLast?_map, List.getLast?_eq_getLast_of_ne_nil p.history_ne_nil, Option.map_some,
    List.getLast?_cons, List.getLast?_map] at hlast
  rw [Checkpoint.ownTransactions, Checkpoints.Payload.tip, Option.some.inj hlast]
  cases c.history.getLast? <;> rfl

end TipOf

/-! ## The answers -/

structure Backend (σ : Type) where
  keccak256 : Bytes → B256
  /-- `Checkpoint::transactions`: those of the checkpoint, with or without the
  ones before it. -/
  transactions : Checkpoint σ → List Transaction
  address : BuilderSigner → Address
  /-- ECDSA over a 32-byte hash. -/
  signHash : BuilderSigner → B256 → Except String Signature
  signTransaction : BuilderSigner → TransactionRequest → Except String Signature
  /-- The EIP-2718 encoding of a transaction that was signed here. -/
  encodeSigned : TransactionRequest → Signature → Bytes
  /-- The nonce of an account on the chain. -/
  nonce : σ → Address → Except String UInt64
  execute : σ → Transaction → Except String (ExecutionResult × σ)

namespace Backend
variable {σ : Type} (b : Backend σ)

def encode2718 : Transaction → Bytes
  | .signed request signature _ => b.encodeSigned request signature
  | .received encoded _ => encoded

/-- `build_signed` of rblib. -/
def buildSigned (request : TransactionRequest) (signer : BuilderSigner) :
    Except Report Transaction := do
  let signature ← (b.signTransaction signer request).mapError .source
  return .signed request signature (b.address signer)

/-- `Checkpoint::nonce_of`: the payload's transactions of the account come on
top of its nonce on the chain. -/
def nonceOf (payload : Checkpoint σ) (account : Address) : Except Report UInt64 := do
  let nonce ← (b.nonce payload.parent account).mapError .source
  return nonce + UInt64.ofNat (payload.allTransactions.countP fun tx => tx.signer = account)

/-- `Checkpoint::apply`. -/
def apply (payload : Checkpoint σ) (tx : Transaction) : Except Report (Checkpoint σ) := do
  let (result, state) ← (b.execute payload.state tx).mapError .source
  return payload.push tx result state

def applyAll (payload : Checkpoint σ) (txs : List Transaction) : Except Report (Checkpoint σ) :=
  txs.foldlM b.apply payload

/-- The hash that EIP-191 has wallets sign in place of a message. -/
def eip191HashMessage (message : Bytes) : B256 :=
  b.keccak256 ([0x19] ++ utf8 "Ethereum Signed Message:\n" ++ utf8 (toString message.length) ++
    message)
where
  utf8 (text : String) : Bytes := text.toList.map fun c => UInt8.ofNat c.toNat

/-- alloy's signer for messages. -/
def signMessageSync (signer : BuilderSigner) (message : Bytes) : Except Report Signature :=
  (b.signHash signer (b.eip191HashMessage message)).mapError .source

/-- `BuilderSigner::sign_message`. -/
def signMessage (signer : BuilderSigner) (message : B256) : Except Report Signature :=
  (b.signMessageSync signer (toBytes message)).mapError (.wrap "could not sign message")

variable {b}

theorem buildSigned_eq_ok {request : TransactionRequest} {signer : BuilderSigner}
    {tx : Transaction} :
    b.buildSigned request signer = .ok tx ↔
      ∃ signature, b.signTransaction signer request = .ok signature ∧
        tx = .signed request signature (b.address signer) := by
  simp only [buildSigned, bind_eq_ok, pure_eq_ok, mapError_eq_ok, eq_comm (a := tx)]

theorem apply_eq_ok {payload p : Checkpoint σ} {tx : Transaction} :
    b.apply payload tx = .ok p ↔
      ∃ result state, b.execute payload.state tx = .ok (result, state) ∧
        p = payload.push tx result state := by
  simp only [apply, bind_eq_ok, pure_eq_ok, mapError_eq_ok, Prod.exists, eq_comm (a := p)]

theorem signMessage_eq_ok {signer : BuilderSigner} {message : B256} {signature : Signature} :
    b.signMessage signer message = .ok signature ↔
      b.signHash signer (b.eip191HashMessage (toBytes message)) = .ok signature := by
  simp only [signMessage, signMessageSync, mapError_eq_ok]

/-- A transaction that was applied counts at once. -/
theorem nonceOf_push {payload : Checkpoint σ} {account : Address} {nonce : UInt64}
    {tx : Transaction} (h : b.nonceOf payload account = .ok nonce) (hsigner : tx.signer = account)
    (result : ExecutionResult) (state : σ) :
    b.nonceOf (payload.push tx result state) account = .ok (nonce + 1) := by
  simp only [nonceOf, bind_eq_ok, pure_eq_ok, mapError_eq_ok] at h ⊢
  obtain ⟨base, hbase, rfl⟩ := h
  refine ⟨base, hbase, ?_⟩
  rw [Checkpoint.allTransactions_push, List.countP_append, List.countP_singleton,
    if_pos (decide_eq_true hsigner), UInt64.ofNat_add, UInt64.add_assoc]
  rfl

end Backend
end UnichainBuilder.Flashtestations.Execution

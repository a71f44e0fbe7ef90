import UnichainBuilder.Publish
import UnichainBuilder.Flashtestations.Executor

/-! # What the block proof commits to

The content hash and the published base each take a parent hash from the block
context: the base takes the hash of the parent header, the content hash takes
the parent hash that this header holds, which is the grandparent. Of the
transactions it takes those that the payload library lists for the checkpoint. -/
namespace UnichainBuilder.Flashtestations.BlockContent
open UnichainBuilder.Lib.Bytes UnichainBuilder.Block UnichainBuilder.Publish
open UnichainBuilder.Flashtestations.Contracts UnichainBuilder.Flashtestations.Execution
open UnichainBuilder.Flashtestations.Executor

variable {σ : Type} (b : Backend σ)

/-- A payload under construction and the block it is for. -/
structure BlockSoFar (σ : Type) where
  payload : Checkpoint σ
  ctx : BlockContext

namespace BlockSoFar

/-- The transactions so far, as they are encoded. -/
def transactions (x : BlockSoFar σ) : List Bytes := x.payload.allTransactions.map b.encode2718

/-- Those that the library lists. -/
def listed (x : BlockSoFar σ) : List Bytes := (b.transactions x.payload).map b.encode2718

/-- The bytes that the content hash is taken of. -/
def contentData (x : BlockSoFar σ) : Bytes :=
  (FlashteststationsExecutor.blockData b x.payload x.ctx).abiEncode

/-- The parent hash of the base that `before_job` prepares for publication. -/
def publishedParentHash (x : BlockSoFar σ) : B256 :=
  (PublishFlashblock.computeBase x.ctx).parentHash

theorem transactionHashes_eq (x : BlockSoFar σ) :
    (FlashteststationsExecutor.blockData b x.payload x.ctx).transactionHashes =
      (x.listed b).map b.keccak256 :=
  List.map_map.symm

end BlockSoFar

/-- What the content hash is to identify. -/
structure SameBlock (x y : BlockSoFar σ) : Prop where
  parentHash : x.publishedParentHash = y.publishedParentHash
  number : x.ctx.number = y.ctx.number
  timestamp : x.ctx.timestamp = y.ctx.timestamp
  transactions : x.transactions b = y.transactions b

/-- What the data takes of the blocks agrees. -/
structure HashedAlike (x y : BlockSoFar σ) : Prop where
  grandparent : x.ctx.parent.parentHash = y.ctx.parent.parentHash
  number : x.ctx.number = y.ctx.number
  timestamp : x.ctx.timestamp = y.ctx.timestamp
  listed : x.listed b = y.listed b

/-- Blocks on different parents that share a parent, alike otherwise. -/
structure SiblingParents (x y : BlockSoFar σ) : Prop extends HashedAlike b x y where
  parent : x.ctx.parent.hash ≠ y.ctx.parent.hash

/-- Blocks that differ in transactions which the library does not list. -/
structure UnlistedApart (x y : BlockSoFar σ) : Prop extends HashedAlike b x y where
  transactions : x.transactions b ≠ y.transactions b

/-- No two listed transactions of the two blocks have the same hash. -/
def TransactionsHashApart (x y : BlockSoFar σ) : Prop :=
  Set.InjOn b.keccak256 {encoded | encoded ∈ x.listed b ∨ encoded ∈ y.listed b}

theorem ofNat_toNat_inj {m n : UInt64} (h : BitVec.ofNat 256 m.toNat = BitVec.ofNat 256 n.toNat) :
    m = n := by
  have hm := m.toNat_lt
  have hn := n.toNat_lt
  have htoNat := congrArg BitVec.toNat h
  rw [BitVec.toNat_ofNat, BitVec.toNat_ofNat, Nat.mod_eq_of_lt (by omega),
    Nat.mod_eq_of_lt (by omega)] at htoNat
  exact UInt64.toNat_inj.mp htoNat

variable {b} {x y : BlockSoFar σ}

/-- The data takes nothing else from the block. -/
theorem HashedAlike.contentData_eq (h : HashedAlike b x y) : x.contentData b = y.contentData b := by
  refine congrArg BlockData.abiEncode (BlockData.ext h.grandparent ?_ ?_ ?_)
  · exact congrArg (fun n : UInt64 => BitVec.ofNat 256 n.toNat) h.number
  · exact congrArg (fun n : UInt64 => BitVec.ofNat 256 n.toNat) h.timestamp
  · rw [x.transactionHashes_eq, y.transactionHashes_eq, h.listed]

/-- What the data does determine. -/
theorem hashedAlike_of_contentData (hashes : TransactionsHashApart b x y)
    (h : x.contentData b = y.contentData b) : HashedAlike b x y := by
  obtain ⟨hparent, hnumber, htimestamp, htxs⟩ := BlockData.ext_iff.mp (BlockData.abiEncode_inj h)
  rw [x.transactionHashes_eq, y.transactionHashes_eq] at htxs
  exact ⟨hparent, ofNat_toNat_inj hnumber, ofNat_toNat_inj htimestamp,
    map_inj_of_injOn hashes htxs⟩

/-- Where the library lists every transaction so far, none differs unlisted. -/
theorem not_unlistedApart (hx : b.transactions x.payload = x.payload.allTransactions)
    (hy : b.transactions y.payload = y.payload.allTransactions) : ¬ UnlistedApart b x y := by
  intro h
  refine h.transactions ?_
  have hlisted := h.listed
  rw [BlockSoFar.listed, BlockSoFar.listed, hx, hy] at hlisted
  exact hlisted

/-- **When the content hash commits to the block.** Equal data means the same
block, as published, if and only if the blocks are neither on sibling parents
nor apart in transactions that the library does not list; if it lists every
transaction so far, the sibling parents are all there is. And the parent hash in
the data is the published one if and only if the parent holds its own hash as
that of its parent. -/
theorem contentData_commits_iff (hashes : TransactionsHashApart b x y) :
    ((x.contentData b = y.contentData b → SameBlock b x y) ↔
        ¬ SiblingParents b x y ∧ ¬ UnlistedApart b x y) ∧
      (b.transactions x.payload = x.payload.allTransactions →
        b.transactions y.payload = y.payload.allTransactions →
          ((x.contentData b = y.contentData b → SameBlock b x y) ↔ ¬ SiblingParents b x y)) ∧
      ((FlashteststationsExecutor.blockData b x.payload x.ctx).parentHash =
          x.publishedParentHash ↔
        x.ctx.parent.parentHash = x.ctx.parent.hash) := by
  have hcommits : (x.contentData b = y.contentData b → SameBlock b x y) ↔
      ¬ SiblingParents b x y ∧ ¬ UnlistedApart b x y := by
    constructor
    · intro h
      refine ⟨fun hsibling => ?_, fun hunlisted => ?_⟩
      · exact hsibling.parent (h hsibling.contentData_eq).parentHash
      · exact hunlisted.transactions (h hunlisted.contentData_eq).transactions
    · rintro ⟨hsibling, hunlisted⟩ hdata
      have halike := hashedAlike_of_contentData hashes hdata
      refine ⟨?_, halike.number, halike.timestamp, ?_⟩
      · by_contra hparent
        exact hsibling ⟨halike, hparent⟩
      · by_contra htransactions
        exact hunlisted ⟨halike, htransactions⟩
  refine ⟨hcommits, fun hx hy => hcommits.trans ?_, Iff.rfl⟩
  exact and_iff_left (not_unlistedApart hx hy)

/-- An empty payload for block 2, on the parent with this hash; the parent of
the parent has the hash 3. -/
def onParent (hash : B256) : BlockSoFar Counters where
  payload := Counters.payload ⟨0, 0⟩
  ctx := { (default : BlockContext) with
    parent := { (default : SealedHeader) with hash, parentHash := 3, number := 1 }
    number := 2 }

theorem contentData_commits_iff_siblings :
    ((onParent 4).contentData devnet = (onParent 5).contentData devnet →
        SameBlock devnet (onParent 4) (onParent 5)) ↔
      ¬ SiblingParents devnet (onParent 4) (onParent 5) :=
  (contentData_commits_iff fun _ h => by rcases h with h | h <;> cases h).2.1 rfl rfl

/-- A block whose last transaction is `[3]`, after one with this encoding. -/
def behind (encoded : Bytes) : BlockSoFar Counters :=
  let empty := onParent 4
  let first := empty.payload.push (.received encoded 9) (.success [] []) empty.payload.state
  { empty with payload := first.push (.received [3] 9) (.success [] []) first.state }

/-- The devnet lists what is in the last checkpoint. -/
example : UnlistedApart devnet (behind [1]) (behind [2]) := ⟨⟨rfl, rfl, rfl, rfl⟩, by decide⟩

/-- Two forks of height one: the same data, other parents. -/
theorem siblings_share_contentData :
    (onParent 4).contentData devnet = (onParent 5).contentData devnet ∧
      ¬ SameBlock devnet (onParent 4) (onParent 5) ∧
      (FlashteststationsExecutor.blockData devnet (onParent 4).payload (onParent 4).ctx).parentHash
        ≠ (onParent 4).publishedParentHash := by
  refine ⟨rfl, fun h => ?_, by decide⟩
  have hparent := h.parentHash
  revert hparent
  decide

end UnichainBuilder.Flashtestations.BlockContent

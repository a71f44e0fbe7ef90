import Mathlib.Tactic.SplitIfs
import UnichainBuilder.Lib.Bound
import UnichainBuilder.Lib.Bytes
import UnichainBuilder.State
import UnichainBuilder.Block

/-! # The flashblocks bundle

`bundle.rs`: the bundle type of `eth_sendBundle`, the two checks of its
bounds, and its hash. `isEligible` is asked before the bundle goes into a
flashblock; `isPermanentlyIneligible` drops bundles when they arrive; the pool
knows a bundle by its `hash`. -/
namespace UnichainBuilder.Bundle
open UnichainBuilder.Lib.Bound UnichainBuilder.Lib.Bytes UnichainBuilder.State
open UnichainBuilder.Block

abbrev TxHash := B256

/-- Transactions that know their own hash. -/
class TxHashRef (Tx : Type) where
  txHash : Tx → TxHash

export TxHashRef (txHash)

/-- A transaction given by its hash. -/
instance : TxHashRef TxHash := ⟨id⟩

structure FlashblocksBundle (Tx : Type) where
  txs : List Tx
  revertingTxHashes : List B256 := []
  droppingTxHashes : List TxHash := []
  minBlockNumber : Option UInt64 := none
  maxBlockNumber : Option UInt64 := none
  minTimestamp : Option UInt64 := none
  maxTimestamp : Option UInt64 := none
  minFlashblockNumber : Option UInt64 := none
  maxFlashblockNumber : Option UInt64 := none
  deriving DecidableEq, Repr

inductive Eligibility
  | eligible
  | temporarilyIneligible
  | permanentlyIneligible
  deriving DecidableEq, Repr

namespace FlashblocksBundle
variable {Tx : Type}

def withoutTransaction [TxHashRef Tx] (self : FlashblocksBundle Tx) (tx : TxHash) :
    FlashblocksBundle Tx :=
  { self with
    txs := self.txs.filter fun t => txHash t ≠ tx
    revertingTxHashes := self.revertingTxHashes.filter fun revertingTx => revertingTx ≠ tx
    droppingTxHashes := self.droppingTxHashes.filter fun droppingTx => droppingTx ≠ tx }

def isEligible (self : FlashblocksBundle Tx) (block : BlockContext)
    (flashblockNumber : FlashblockNumber) : Eligibility :=
  if self.txs.isEmpty then .permanentlyIneligible
  else if self.maxBlockNumber.any fun maxBn => maxBn < block.number then .permanentlyIneligible
  else if self.minBlockNumber.any fun minBn => minBn > block.number then .temporarilyIneligible
  else if self.maxTimestamp.any fun maxTs => maxTs < block.timestamp then .permanentlyIneligible
  -- the source compares the lower bound on the timestamp like an upper one
  else if self.minTimestamp.any fun minTs => minTs < block.timestamp then .temporarilyIneligible
  else if self.minFlashblockNumber.any fun minFb => minFb > flashblockNumber.current then
    .temporarilyIneligible
  else if self.maxFlashblockNumber.any fun maxFb => maxFb < flashblockNumber.current then
    .permanentlyIneligible
  else .eligible

def isPermanentlyIneligible (self : FlashblocksBundle Tx) (block : SealedHeader) : Bool :=
  if self.txs.isEmpty then true
  else if self.txs.length > 1 then true
  else if self.maxBlockNumber.any fun maxBn => maxBn < block.number then true
  else if self.minBlockNumber.any fun minBlockNumber =>
    self.maxBlockNumber.any fun maxBlockNumber => minBlockNumber > maxBlockNumber then true
  else if self.maxTimestamp.any fun maxTs => maxTs < block.timestamp then true
  else false

def isAllowedToFail (self : FlashblocksBundle Tx) (tx : TxHash) : Bool :=
  self.revertingTxHashes.contains tx

def isOptional (self : FlashblocksBundle Tx) (tx : TxHash) : Bool :=
  self.droppingTxHashes.contains tx

/-- The bytes that `hash` feeds to the hasher. -/
def hashInput [TxHashRef Tx] (self : FlashblocksBundle Tx) : Bytes :=
  concat (self.txs.map txHash) ++
  concat self.revertingTxHashes ++
  concat self.droppingTxHashes ++
  -- a bound that is absent feeds nothing
  concat self.minBlockNumber.toList ++
  concat self.maxBlockNumber.toList ++
  concat self.minTimestamp.toList ++
  concat self.maxTimestamp.toList ++
  concat self.minFlashblockNumber.toList ++
  concat self.maxFlashblockNumber.toList

def hash [TxHashRef Tx] (keccak256 : Bytes → B256) (self : FlashblocksBundle Tx) : B256 :=
  keccak256 self.hashInput

/-! ## What the checks ask -/

/-- The bounds that the block alone decides and time only pushes forward. -/
structure BlockEligible (b : FlashblocksBundle Tx) (block : BlockContext) : Prop where
  minBlockNumber : AtLeast b.minBlockNumber block.number
  maxTimestamp : AtMost b.maxTimestamp block.timestamp
  minTimestamp : AtMost b.minTimestamp block.timestamp

theorem isEligible_eq_eligible_iff {self : FlashblocksBundle Tx} {block : BlockContext}
    {n : FlashblockNumber} :
    self.isEligible block n = .eligible ↔
      self.txs ≠ [] ∧ AtMost self.maxBlockNumber block.number ∧ self.BlockEligible block ∧
        AtLeast self.minFlashblockNumber n.current ∧ AtMost self.maxFlashblockNumber n.current := by
  simp only [isEligible, any_below_iff, any_above_iff, List.isEmpty_iff]
  constructor
  · intro h
    split_ifs at h with h1 h2 h3 h4 h5 h6 h7
    exact ⟨h1, h2, ⟨h3, h4, h5⟩, h6, h7⟩
  · rintro ⟨h1, h2, ⟨h3, h4, h5⟩, h6, h7⟩
    simp [h1, h2, h3, h4, h5, h6, h7]

/-- The four reasons to give a bundle up, each asked only when the checks
before it passed. -/
theorem isEligible_eq_permanentlyIneligible_iff {self : FlashblocksBundle Tx}
    {block : BlockContext} {n : FlashblockNumber} :
    self.isEligible block n = .permanentlyIneligible ↔
      self.txs = [] ∨ ¬ AtMost self.maxBlockNumber block.number ∨
        AtLeast self.minBlockNumber block.number ∧ ¬ AtMost self.maxTimestamp block.timestamp ∨
        self.BlockEligible block ∧ AtLeast self.minFlashblockNumber n.current ∧
          ¬ AtMost self.maxFlashblockNumber n.current := by
  simp only [isEligible, any_below_iff, any_above_iff, List.isEmpty_iff]
  constructor
  · intro h
    split_ifs at h with h1 h2 h3 h4 h5 h6 h7
    · exact .inl h1
    · exact .inr (.inr (.inr ⟨⟨h3, h4, h5⟩, h6, h7⟩))
    · exact .inr (.inr (.inl ⟨h3, h4⟩))
    · exact .inr (.inl h2)
  · rintro (h1 | h2 | ⟨h3, h4⟩ | ⟨⟨h3, h4, h5⟩, h6, h7⟩)
    · simp [h1]
    · simp [h2]
    · simp [h3, h4]
    · simp [h3, h4, h5, h6, h7]

theorem isPermanentlyIneligible_iff {self : FlashblocksBundle Tx} {header : SealedHeader} :
    self.isPermanentlyIneligible header = true ↔
      self.txs = [] ∨ 1 < self.txs.length ∨ ¬ AtMost self.maxBlockNumber header.number ∨
        Crossed self.minBlockNumber self.maxBlockNumber ∨
        ¬ AtMost self.maxTimestamp header.timestamp := by
  simp only [isPermanentlyIneligible, any_below_iff, any_crossed_iff, List.isEmpty_iff, gt_iff_lt]
  constructor
  · intro h
    split_ifs at h with h1 h2 h3 h4 h5
    · exact .inl h1
    · exact .inr (.inl h2)
    · exact .inr (.inr (.inr (.inl h4)))
    · exact .inr (.inr (.inr (.inr h5)))
    · exact .inr (.inr (.inl h3))
  · rintro (h1 | h2 | h3 | h4 | h5)
    · simp [h1]
    · simp [h2]
    · simp [h3]
    · simp [h4]
    · simp [h5]

/-- What is not turned away has exactly one transaction. -/
theorem exists_single_of_admitted {self : FlashblocksBundle Tx} {header : SealedHeader}
    (admitted : self.isPermanentlyIneligible header = false) : ∃ tx, self.txs = [tx] := by
  have h := (not_congr isPermanentlyIneligible_iff).mp (Bool.eq_false_iff.mp admitted)
  rw [not_or, not_or, not_lt] at h
  have hpos := List.length_pos_iff.mpr h.1
  exact List.length_eq_one_iff.mp (Nat.le_antisymm h.2.1 hpos)

end FlashblocksBundle
end UnichainBuilder.Bundle

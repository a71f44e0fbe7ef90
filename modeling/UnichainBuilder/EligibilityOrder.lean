import Mathlib.Data.List.Chain
import UnichainBuilder.Bundle

/-! # Which bound answers first

`is_eligible` asks its seven questions in a fixed order and answers with the
first that says no. Those on the block come first and leave the rest to the
flashblock window. So within a block the answer moves forward with the
flashblock number, but among the bounds on the block an expired timestamp has
to wait behind a block number that is not reached. -/
namespace UnichainBuilder.EligibilityOrder
open UnichainBuilder.Lib.Bound UnichainBuilder.State UnichainBuilder.Block UnichainBuilder.Bundle

variable {Tx : Type} {b : FlashblocksBundle Tx} {block : BlockContext} {m n : FlashblockNumber}

/-! ## Upper against lower bounds -/

/-- **When an expired upper bound decides.** A bundle whose block number or
timestamp has passed its upper bound is given up if and only if it is empty,
or it is the block number that has passed, or `minBlockNumber` does not hold
the bundle back. -/
theorem expired_bound_wins_iff
    (expired : ¬ AtMost b.maxBlockNumber block.number ∨ ¬ AtMost b.maxTimestamp block.timestamp) :
    b.isEligible block n = .permanentlyIneligible ↔
      b.txs = [] ∨ ¬ AtMost b.maxBlockNumber block.number ∨
        AtLeast b.minBlockNumber block.number := by
  rw [FlashblocksBundle.isEligible_eq_permanentlyIneligible_iff]
  refine or_congr_right (or_congr_right' fun hnumber => ?_)
  have htime := expired.resolve_left hnumber
  constructor
  · rintro (⟨hmin, _⟩ | ⟨hblock, _, _⟩)
    · exact hmin
    · exact absurd hblock.maxTimestamp htime
  · exact fun hmin => .inl ⟨hmin, htime⟩

/-- Expired by its timestamp, and no lower bound in the way. -/
theorem expired_bound_wins_timestamp :
    let b : FlashblocksBundle Bytes := { txs := [[1]], maxTimestamp := some 5 }
    let block : BlockContext := { (default : BlockContext) with timestamp := 6 }
    (b.isEligible block .new = .permanentlyIneligible ↔
      b.txs = [] ∨ ¬ AtMost b.maxBlockNumber block.number ∨
        AtLeast b.minBlockNumber block.number) ∧
      AtLeast b.minBlockNumber block.number ∧
      b.isEligible block .new = .permanentlyIneligible := by
  intro b block
  have hgiven : b.isEligible block .new = .permanentlyIneligible ↔
      b.txs = [] ∨ ¬ AtMost b.maxBlockNumber block.number ∨
        AtLeast b.minBlockNumber block.number := expired_bound_wins_iff (.inr (by decide))
  have hmin : AtLeast b.minBlockNumber block.number := by decide
  exact ⟨hgiven, hmin, hgiven.mpr (.inr (.inr hmin))⟩

/-- The timestamp bound has expired, but the bundle waits for block 10. -/
theorem expired_but_waiting :
    let b : FlashblocksBundle Bytes :=
      { txs := [[1]], minBlockNumber := some 10, maxTimestamp := some 5 }
    let block : BlockContext := { (default : BlockContext) with number := 1, timestamp := 6 }
    ¬ AtMost b.maxTimestamp block.timestamp ∧
      b.isEligible block .new = .temporarilyIneligible := by
  decide

/-! ## Within one block -/

/-- The order in which a bundle comes and goes. -/
def stage : Eligibility → Nat
  | .temporarilyIneligible => 0
  | .eligible => 1
  | .permanentlyIneligible => 2

/-- What the block alone decides. -/
def blockAnswer (b : FlashblocksBundle Tx) (block : BlockContext) : Option Eligibility :=
  if b.txs.isEmpty then some .permanentlyIneligible
  else if b.maxBlockNumber.any fun maxBn => maxBn < block.number then some .permanentlyIneligible
  else if b.minBlockNumber.any fun minBn => minBn > block.number then some .temporarilyIneligible
  else if b.maxTimestamp.any fun maxTs => maxTs < block.timestamp then some .permanentlyIneligible
  else if b.minTimestamp.any fun minTs => minTs < block.timestamp then some .temporarilyIneligible
  else none

/-- What is left to the flashblock window. -/
def windowAnswer (b : FlashblocksBundle Tx) (n : UInt64) : Eligibility :=
  if b.minFlashblockNumber.any fun minFb => minFb > n then .temporarilyIneligible
  else if b.maxFlashblockNumber.any fun maxFb => maxFb < n then .permanentlyIneligible
  else .eligible

theorem isEligible_eq (b : FlashblocksBundle Tx) (block : BlockContext) (n : FlashblockNumber) :
    b.isEligible block n = (blockAnswer b block).getD (windowAnswer b n.current) := by
  unfold FlashblocksBundle.isEligible blockAnswer windowAnswer
  split_ifs <;> rfl

/-- The window opens and closes, also where it closes before it opens. -/
theorem windowAnswer_mono {m n : UInt64} (h : m ≤ n) :
    stage (windowAnswer b m) ≤ stage (windowAnswer b n) := by
  simp only [windowAnswer, any_below_iff, any_above_iff]
  by_cases hmin : AtLeast b.minFlashblockNumber m
  · have hmin' := hmin.mono h
    rw [if_neg (not_not_intro hmin), if_neg (not_not_intro hmin')]
    by_cases hmax : AtMost b.maxFlashblockNumber n
    · have hmax' := hmax.anti h
      rw [if_neg (not_not_intro hmax), if_neg (not_not_intro hmax')]
    · rw [if_pos hmax]
      split <;> decide
  · rw [if_pos hmin]
    exact Nat.zero_le _

theorem stage_mono (h : m.current ≤ n.current) :
    stage (b.isEligible block m) ≤ stage (b.isEligible block n) := by
  rw [isEligible_eq, isEligible_eq]
  cases blockAnswer b block with
  | none => exact windowAnswer_mono h
  | some answer => exact Nat.le_refl _

/-- **Within a payload job a bundle only moves forward**: from not yet, to
eligible, to given up, whatever its bounds. -/
theorem status_moves_forward {numbers : List FlashblockNumber}
    (h : numbers.Pairwise fun m n => m.current ≤ n.current) :
    (numbers.map fun n => stage (b.isEligible block n)).Pairwise (· ≤ ·) :=
  List.pairwise_map.mpr (h.imp stage_mono)

/-- A window for the second flashblock only. -/
theorem status_moves_forward_window :
    let b : FlashblocksBundle Bytes :=
      { txs := [[1]], minFlashblockNumber := some 2, maxFlashblockNumber := some 2 }
    ([FlashblockNumber.new, ⟨2, by decide⟩, ⟨2, by decide⟩, ⟨3, by decide⟩].map fun n =>
      stage (b.isEligible default n)).Pairwise (· ≤ ·) :=
  status_moves_forward (by decide)

end UnichainBuilder.EligibilityOrder

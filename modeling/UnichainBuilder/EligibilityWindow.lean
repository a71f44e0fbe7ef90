import UnichainBuilder.Bundle

/-! # The windows of a bundle

What the bounds of a bundle are for: three windows, on block number, block
timestamp and flashblock number, that the current point must lie in. The
check reads the lower bound of the timestamp window the wrong way round, so
it decides the windows only where that bound cannot tell the difference. -/
namespace UnichainBuilder.EligibilityWindow
open UnichainBuilder.Lib.Bound UnichainBuilder.State UnichainBuilder.Block UnichainBuilder.Bundle

variable {Tx : Type} {b : FlashblocksBundle Tx} {block : BlockContext} {n : FlashblockNumber}

/-- A transaction, and every bound but `minTimestamp`. -/
structure OtherBounds (b : FlashblocksBundle Tx) (block : BlockContext) (n : FlashblockNumber) :
    Prop where
  txs : b.txs ≠ []
  minBlockNumber : AtLeast b.minBlockNumber block.number
  maxBlockNumber : AtMost b.maxBlockNumber block.number
  maxTimestamp : AtMost b.maxTimestamp block.timestamp
  minFlashblockNumber : AtLeast b.minFlashblockNumber n.current
  maxFlashblockNumber : AtMost b.maxFlashblockNumber n.current

/-- The bundle has a transaction and the point lies in all of its windows. -/
def InWindows (b : FlashblocksBundle Tx) (block : BlockContext) (n : FlashblockNumber) : Prop :=
  OtherBounds b block n ∧ AtLeast b.minTimestamp block.timestamp

/-- What `isEligible` tests in their place. -/
theorem isEligible_iff_otherBounds :
    b.isEligible block n = .eligible ↔
      OtherBounds b block n ∧ AtMost b.minTimestamp block.timestamp := by
  rw [FlashblocksBundle.isEligible_eq_eligible_iff]
  constructor
  · rintro ⟨htxs, hmaxBn, hblock, hminFb, hmaxFb⟩
    exact ⟨⟨htxs, hblock.minBlockNumber, hmaxBn, hblock.maxTimestamp, hminFb, hmaxFb⟩,
      hblock.minTimestamp⟩
  · rintro ⟨h, hminTs⟩
    exact ⟨h.txs, h.maxBlockNumber, ⟨h.minBlockNumber, h.maxTimestamp, hminTs⟩,
      h.minFlashblockNumber, h.maxFlashblockNumber⟩

/-- **When eligibility means the windows.** `isEligible` answers `eligible`
exactly inside the windows, if and only if `minTimestamp` is absent or is the
timestamp of the block, or something else keeps the bundle out. -/
theorem isEligible_decides_windows_iff :
    (b.isEligible block n = .eligible ↔ InWindows b block n) ↔
      (∀ m ∈ b.minTimestamp, m = block.timestamp) ∨ ¬ OtherBounds b block n := by
  rw [isEligible_iff_otherBounds, InWindows]
  by_cases hother : OtherBounds b block n
  · rw [and_iff_right hother, and_iff_right hother, or_iff_left (not_not_intro hother)]
    constructor
    · intro h m hm
      rcases Std.le_total (a := m) (b := block.timestamp) with hle | hle
      · have hmin : AtLeast b.minTimestamp block.timestamp := fun m' hm' =>
          Option.mem_unique hm hm' ▸ hle
        exact Std.le_antisymm hle (h.mpr hmin m hm)
      · have hmax : AtMost b.minTimestamp block.timestamp := fun m' hm' =>
          Option.mem_unique hm hm' ▸ hle
        exact Std.le_antisymm (h.mp hmax m hm) hle
    · intro h
      exact forall₂_congr fun m hm => by rw [h m hm]
  · exact iff_of_true (by simp [hother]) (.inr hother)

/-- A bundle that may be included from timestamp 100 on is refused at 200. -/
theorem not_eligible_inside_windows :
    let b : FlashblocksBundle Bytes := { txs := [[1]], minTimestamp := some 100 }
    let block : BlockContext := { (default : BlockContext) with timestamp := 200 }
    InWindows b block .new ∧ b.isEligible block .new = .temporarilyIneligible := by
  refine ⟨⟨?_, by decide⟩, by decide⟩
  exact ⟨by simp, by decide, by decide, by decide, by decide, by decide⟩

end UnichainBuilder.EligibilityWindow

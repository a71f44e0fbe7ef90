import Mathlib.Data.List.Chain
import UnichainBuilder.Bundle

/-! # Giving a bundle up for good

A bundle is dropped on two occasions: by `isPermanentlyIneligible` when it
arrives, and in the pool when `isEligible` answers `permanentlyIneligible`.
Block number and timestamp only grow along a chain, but the flashblock number
starts again with every block. This file says for each answer when no later
point of the chain can make the bundle eligible. -/
namespace UnichainBuilder.Eligibility
open UnichainBuilder.Lib.Bound UnichainBuilder.State UnichainBuilder.Block UnichainBuilder.Bundle

variable {Tx : Type} {b : FlashblocksBundle Tx}

/-! ## The drop check -/

/-- The rules of the drop check other than the number of transactions. -/
def Expired (b : FlashblocksBundle Tx) (header : SealedHeader) : Prop :=
  b.txs = [] ∨ ¬ AtMost b.maxBlockNumber header.number ∨
    Crossed b.minBlockNumber b.maxBlockNumber ∨ ¬ AtMost b.maxTimestamp header.timestamp

theorem isPermanentlyIneligible_iff_expired {header : SealedHeader} :
    b.isPermanentlyIneligible header = true ↔ 1 < b.txs.length ∨ Expired b header := by
  rw [FlashblocksBundle.isPermanentlyIneligible_iff, Expired, or_left_comm]

/-- Each of these rules stays in the way of every later block. -/
theorem not_eligible_of_expired {header : SealedHeader} {block : BlockContext}
    {n : FlashblockNumber} (h : Expired b header) (hnumber : header.number < block.number)
    (htime : header.timestamp ≤ block.timestamp) : b.isEligible block n ≠ .eligible := by
  rw [Ne, FlashblocksBundle.isEligible_eq_eligible_iff]
  rintro ⟨htxs, hmax, hblock, _, _⟩
  rcases h with hempty | hpast | hcross | hlate
  · exact htxs hempty
  · exact hpast (hmax.anti (Std.le_of_lt hnumber))
  · exact hcross.not_atMost hblock.minBlockNumber hmax
  · exact hlate (hblock.maxTimestamp.anti htime)

/-- **The drop check has no false positives but for its size rule.** If the
bundle is dropped, and would be with its first transaction alone where it has
more than one, then it is eligible in no later block. -/
theorem no_false_positives {header : SealedHeader} {block : BlockContext} {n : FlashblockNumber}
    (hdrop : b.isPermanentlyIneligible header = true)
    (hsize : 1 < b.txs.length →
      ({ b with txs := b.txs.take 1 } : FlashblocksBundle Tx).isPermanentlyIneligible header = true)
    (hnumber : header.number < block.number) (htime : header.timestamp ≤ block.timestamp) :
    b.isEligible block n ≠ .eligible := by
  refine not_eligible_of_expired ?_ hnumber htime
  rcases isPermanentlyIneligible_iff_expired.mp hdrop with hmany | hexpired
  · -- cut to one transaction the size rule is silent, and no other rule sees the cut
    rcases isPermanentlyIneligible_iff_expired.mp (hsize hmany) with hcut | hempty | hrest
    · simp at hcut
    · exact .inl ((List.take_eq_nil_iff.mp hempty).resolve_left (by decide))
    · exact .inr hrest
  · exact hexpired

/-- A single transaction, and the block number is past the bound. -/
theorem no_false_positives_single :
    let b : FlashblocksBundle Bytes := { txs := [[1]], maxBlockNumber := some 5 }
    let block : BlockContext := { (default : BlockContext) with number := 11 }
    b.isEligible block .new ≠ .eligible := by
  intro b block
  have hdrop : b.isPermanentlyIneligible { (default : SealedHeader) with number := 10 } = true := by
    decide
  exact no_false_positives hdrop (by decide) (by decide) (by decide)

/-- A bundle of two transactions without bounds is dropped, and eligible. -/
theorem dropped_but_eligible :
    let b : FlashblocksBundle Bytes := { txs := [[1], [2]] }
    let block : BlockContext := { (default : BlockContext) with number := 1 }
    b.isPermanentlyIneligible default = true ∧ (default : SealedHeader).number < block.number ∧
      (default : SealedHeader).timestamp ≤ block.timestamp ∧
      b.isEligible block .new = .eligible := by
  decide

/-! ## Along a chain -/

/-- Where a chain run is when it asks about a bundle. -/
structure Point where
  block : BlockContext
  flashblockNumber : FlashblockNumber

/-- Later in the same block, or in a later block, where the flashblocks are
counted from one again. -/
def Later (p q : Point) : Prop :=
  (q.block = p.block ∧ p.flashblockNumber.current ≤ q.flashblockNumber.current) ∨
    (p.block.number < q.block.number ∧ p.block.timestamp ≤ q.block.timestamp)

theorem Later.trans {p q r : Point} (hpq : Later p q) (hqr : Later q r) : Later p r := by
  rcases hpq with ⟨hblock, hn⟩ | ⟨hnumber, htime⟩
  · rcases hqr with ⟨hblock', hn'⟩ | ⟨hnumber', htime'⟩
    · exact .inl ⟨hblock'.trans hblock, Std.le_trans hn hn'⟩
    · rw [hblock] at hnumber' htime'
      exact .inr ⟨hnumber', htime'⟩
  · rcases hqr with ⟨hblock', _⟩ | ⟨hnumber', htime'⟩
    · rw [← hblock'] at hnumber htime
      exact .inr ⟨hnumber, htime⟩
    · exact .inr ⟨Std.lt_trans hnumber hnumber', Std.le_trans htime htime'⟩

def eligibilityAt (b : FlashblocksBundle Tx) (p : Point) : Eligibility :=
  b.isEligible p.block p.flashblockNumber

/-- Only the flashblock number can be in the way: the other bounds hold in
the block and still can in a later one, and the flashblock bounds leave room. -/
structure Reopens (b : FlashblocksBundle Tx) (block : BlockContext) : Prop where
  txs : b.txs ≠ []
  bounds : b.BlockEligible block
  laterBlock : ∃ number, block.number < number ∧ AtMost b.maxBlockNumber number
  flashblock : ∃ n : FlashblockNumber,
    AtLeast b.minFlashblockNumber n.current ∧ AtMost b.maxFlashblockNumber n.current

/-- A bundle that was given up comes back only through the flashblock bound. -/
theorem reopens_of_eligible_later {p q : Point} (hlater : Later p q)
    (hp : eligibilityAt b p = .permanentlyIneligible) (hq : eligibilityAt b q = .eligible) :
    Reopens b p.block := by
  obtain ⟨htxs, hmax, hblock, hminFb, hmaxFb⟩ := FlashblocksBundle.isEligible_eq_eligible_iff.mp hq
  have hreason := FlashblocksBundle.isEligible_eq_permanentlyIneligible_iff.mp hp
  rcases hlater with ⟨hsame, hn⟩ | ⟨hnumber, htime⟩
  · rw [hsame] at hmax hblock
    rcases hreason with hempty | hpast | ⟨_, hlate⟩ | ⟨_, _, hpassed⟩
    · exact absurd hempty htxs
    · exact absurd hmax hpast
    · exact absurd hblock.maxTimestamp hlate
    · exact absurd (hmaxFb.anti hn) hpassed
  · rcases hreason with hempty | hpast | ⟨_, hlate⟩ | ⟨hblock', _, _⟩
    · exact absurd hempty htxs
    · exact absurd (hmax.anti (Std.le_of_lt hnumber)) hpast
    · exact absurd (hblock.maxTimestamp.anti htime) hlate
    · exact ⟨htxs, hblock', ⟨_, hnumber, hmax⟩, ⟨_, hminFb, hmaxFb⟩⟩

theorem eligible_later_of_reopens {p : Point} (h : Reopens b p.block) :
    ∃ q, Later p q ∧ eligibilityAt b q = .eligible := by
  obtain ⟨number, hnumber, hmax⟩ := h.laterBlock
  obtain ⟨n, hminFb, hmaxFb⟩ := h.flashblock
  refine ⟨⟨{ p.block with number }, n⟩, .inr ⟨hnumber, Std.le_refl _⟩, ?_⟩
  exact FlashblocksBundle.isEligible_eq_eligible_iff.mpr ⟨h.txs, hmax,
    ⟨h.bounds.minBlockNumber.mono (Std.le_of_lt hnumber), h.bounds.maxTimestamp,
      h.bounds.minTimestamp⟩, hminFb, hmaxFb⟩

/-- **When giving up is final.** A bundle that `isEligible` gave up at a point
stays out of every later point of every chain exactly when it does not reopen
with a later block. -/
theorem permanentlyIneligible_absorbing_iff {p : Point}
    (hp : eligibilityAt b p = .permanentlyIneligible) :
    (∀ q, Later p q → eligibilityAt b q ≠ .eligible) ↔ ¬ Reopens b p.block := by
  constructor
  · intro h hreopens
    obtain ⟨q, hlater, hq⟩ := eligible_later_of_reopens hreopens
    exact h q hlater hq
  · exact fun h q hlater hq => h (reopens_of_eligible_later hlater hp hq)

/-- The block number passed the bound: the bundle never comes back. -/
theorem permanentlyIneligible_absorbing_expired :
    let b : FlashblocksBundle Bytes := { txs := [[1]], maxBlockNumber := some 5 }
    ∀ q, Later ⟨{ (default : BlockContext) with number := 6 }, .new⟩ q →
      eligibilityAt b q ≠ .eligible := by
  refine (permanentlyIneligible_absorbing_iff (by decide)).mpr fun h => ?_
  obtain ⟨number, hnumber, hmax⟩ := h.laterBlock
  have hle : number ≤ 5 := hmax 5 rfl
  exact absurd (Std.lt_of_lt_of_le hnumber hle) (by decide)

/-- A bundle for the first flashblock is given up in the second, and eligible
again in the first flashblock of the next block. -/
theorem permanentlyIneligible_reopened :
    let b : FlashblocksBundle Bytes := { txs := [[1]], maxFlashblockNumber := some 1 }
    let p : Point := ⟨{ (default : BlockContext) with number := 1 }, ⟨2, by decide⟩⟩
    let q : Point := ⟨{ (default : BlockContext) with number := 2, timestamp := 1 }, .new⟩
    Later p q ∧ eligibilityAt b p = .permanentlyIneligible ∧ eligibilityAt b q = .eligible := by
  exact ⟨.inr (by decide), by decide, by decide⟩

/-- **Along a whole run.** Where no point that gives the bundle up lets it
reopen, no point after it finds the bundle eligible. -/
theorem given_up_along_run {points : List Point} (h : points.IsChain Later)
    (hfinal : ∀ p ∈ points, eligibilityAt b p = .permanentlyIneligible → ¬ Reopens b p.block) :
    points.Pairwise fun p q =>
      eligibilityAt b p = .permanentlyIneligible → eligibilityAt b q ≠ .eligible := by
  have : Trans Later Later Later := ⟨Later.trans⟩
  exact h.pairwise.imp_of_mem fun hp _ hlater hgiven hq =>
    hfinal _ hp hgiven (reopens_of_eligible_later hlater hgiven hq)

end UnichainBuilder.Eligibility

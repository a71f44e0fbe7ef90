import UnichainBuilder.Bundle

/-! # Taking transactions out of a bundle

`without_transaction` takes one hash out of the three lists of a bundle. What
a sequence of removals leaves depends on the set of the hashes alone: the
bundle restricted to the other ones, with its bounds as they were. -/
namespace UnichainBuilder.BundleRemoval
open UnichainBuilder.State UnichainBuilder.Block UnichainBuilder.Bundle

variable {Tx : Type} [TxHashRef Tx] {b : FlashblocksBundle Tx} {p q : TxHash → Bool}

/-- The part of a bundle whose hashes satisfy `p`. -/
def restrict (p : TxHash → Bool) (b : FlashblocksBundle Tx) : FlashblocksBundle Tx :=
  { b with
    txs := b.txs.filter fun t => p (txHash t)
    revertingTxHashes := b.revertingTxHashes.filter p
    droppingTxHashes := b.droppingTxHashes.filter p }

theorem withoutTransaction_eq (b : FlashblocksBundle Tx) (tx : TxHash) :
    b.withoutTransaction tx = restrict (fun h => h ≠ tx) b := rfl

theorem restrict_restrict : restrict p (restrict q b) = restrict (fun h => p h && q h) b := by
  simp only [restrict, List.filter_filter]

theorem restrict_all : restrict (fun _ => true) b = b := by
  simp only [restrict, List.filter_true]

/-- A list is asked about a hash: what the restriction dropped is not in it. -/
theorem contains_filter {hashes : List TxHash} {tx : TxHash} :
    (hashes.filter p).contains tx = (p tx && hashes.contains tx) := by
  rw [Bool.eq_iff_iff, Bool.and_eq_true, List.contains_iff_mem, List.contains_iff_mem,
    List.mem_filter, and_comm]

theorem isAllowedToFail_restrict {tx : TxHash} :
    (restrict p b).isAllowedToFail tx = (p tx && b.isAllowedToFail tx) := contains_filter

theorem isOptional_restrict {tx : TxHash} :
    (restrict p b).isOptional tx = (p tx && b.isOptional tx) := contains_filter

/-- The bounds are those of the bundle, so only emptiness can change the answer. -/
theorem isEligible_restrict {block : BlockContext} {n : FlashblockNumber} :
    (restrict p b).isEligible block n =
      if (restrict p b).txs = [] then .permanentlyIneligible else b.isEligible block n := by
  split
  · rename_i hempty
    rw [FlashblocksBundle.isEligible, hempty]
    rfl
  · rename_i hsurvives
    have hsome : (restrict p b).txs.isEmpty = false := by simpa using hsurvives
    have hsome' : b.txs.isEmpty = false := by
      rw [List.isEmpty_eq_false_iff]
      intro hnil
      exact hsurvives (by rw [restrict, hnil, List.filter_nil])
    rw [FlashblocksBundle.isEligible, FlashblocksBundle.isEligible, hsome, hsome']
    rfl

/-! ## One removal after the other -/

def withoutTransactions (b : FlashblocksBundle Tx) (hashes : List TxHash) : FlashblocksBundle Tx :=
  hashes.foldl FlashblocksBundle.withoutTransaction b

theorem withoutTransactions_eq (b : FlashblocksBundle Tx) (hashes : List TxHash) :
    withoutTransactions b hashes = restrict (fun h => h ∉ hashes) b := by
  induction hashes generalizing b with
  | nil => simp [withoutTransactions, restrict_all]
  | cons tx hashes ih =>
    have hstep : withoutTransactions b (tx :: hashes) =
      withoutTransactions (b.withoutTransaction tx) hashes := rfl
    rw [hstep, ih, withoutTransaction_eq, restrict_restrict]
    congr 1
    funext h
    simp [Bool.and_comm]

/-- What is left of `b` after the removals of `hashes`. -/
structure Left (b : FlashblocksBundle Tx) (hashes : List TxHash) (left : FlashblocksBundle Tx) :
    Prop where
  survivors : left.txs = b.txs.filter fun t => txHash t ∉ hashes
  inOrder : left.txs.Sublist b.txs
  isAllowedToFail : ∀ tx,
    left.isAllowedToFail tx = if tx ∈ hashes then false else b.isAllowedToFail tx
  isOptional : ∀ tx, left.isOptional tx = if tx ∈ hashes then false else b.isOptional tx
  isEligible : ∀ block n,
    left.isEligible block n =
      if left.txs = [] then .permanentlyIneligible else b.isEligible block n

theorem left_restrict (b : FlashblocksBundle Tx) (hashes : List TxHash) :
    Left b hashes (restrict (fun h => h ∉ hashes) b) where
  survivors := rfl
  inOrder := List.filter_sublist
  isAllowedToFail tx := by
    rw [isAllowedToFail_restrict]
    split <;> simp [*]
  isOptional tx := by
    rw [isOptional_restrict]
    split <;> simp [*]
  isEligible _ _ := isEligible_restrict

/-- **Removals in any order.** Removing a list of hashes leaves the same as
removing any other list of the same ones, repetitions or not: the other
transactions in their order, the permissions of the other hashes, and the
eligibility of the bundle as long as a transaction survives. -/
theorem removals_commute (b : FlashblocksBundle Tx) (hashes : List TxHash) :
    Left b hashes (withoutTransactions b hashes) ∧
      ∀ others : List TxHash, (∀ tx, tx ∈ others ↔ tx ∈ hashes) →
        withoutTransactions b others = withoutTransactions b hashes := by
  refine ⟨?_, fun others hsame => ?_⟩
  · rw [withoutTransactions_eq]
    exact left_restrict b hashes
  · rw [withoutTransactions_eq, withoutTransactions_eq]
    congr 1
    funext tx
    exact decide_eq_decide.mpr (not_congr (hsame tx))

example :
    let b : FlashblocksBundle TxHash :=
      { txs := [7, 8, 9, 7], revertingTxHashes := [8, 5, 8], droppingTxHashes := [7, 9] }
    withoutTransactions b [7, 5, 7] =
      { b with txs := [8, 9], revertingTxHashes := [8, 8], droppingTxHashes := [9] } := by
  decide

end UnichainBuilder.BundleRemoval

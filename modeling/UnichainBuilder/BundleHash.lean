import UnichainBuilder.Bundle

/-! # What the hash of a bundle identifies

`hash` feeds every field of the bundle to the hasher, but neither how long the
lists are nor which of the bounds are there. Of the preimage only two lists
can be read back, and the bundle only by one who knows its shape. -/
namespace UnichainBuilder.BundleHash
open UnichainBuilder.Lib.Bytes UnichainBuilder.Block UnichainBuilder.Bundle

variable {Tx : Type}

def bounds (b : FlashblocksBundle Tx) : List (Option UInt64) :=
  [b.minBlockNumber, b.maxBlockNumber, b.minTimestamp, b.maxTimestamp, b.minFlashblockNumber,
    b.maxFlashblockNumber]

variable [TxHashRef Tx] {a b : FlashblocksBundle Tx}

/-- What the hash is to identify. -/
structure SameFields (a b : FlashblocksBundle Tx) : Prop where
  txs : a.txs.map txHash = b.txs.map txHash
  revertingTxHashes : a.revertingTxHashes = b.revertingTxHashes
  droppingTxHashes : a.droppingTxHashes = b.droppingTxHashes
  bounds : bounds a = bounds b

/-- Lists of the same lengths and the same bounds present. -/
structure SameShape (a b : FlashblocksBundle Tx) : Prop where
  txs : a.txs.length = b.txs.length
  revertingTxHashes : a.revertingTxHashes.length = b.revertingTxHashes.length
  droppingTxHashes : a.droppingTxHashes.length = b.droppingTxHashes.length
  bounds : (bounds a).map Option.isSome = (bounds b).map Option.isSome

def hashes (b : FlashblocksBundle Tx) : List B256 :=
  b.txs.map txHash ++ b.revertingTxHashes ++ b.droppingTxHashes

theorem hashInput_eq (b : FlashblocksBundle Tx) :
    b.hashInput = concat (hashes b) ++ concat (bounds b).reduceOption := by
  simp [FlashblocksBundle.hashInput, hashes, bounds, reduceOption_cons]

/-- The hash sees the three lists as one and the bounds without their names. -/
theorem hash_eq_of_regrouped (hhashes : hashes a = hashes b)
    (hbounds : (bounds a).reduceOption = (bounds b).reduceOption) (keccak256 : Bytes → B256) :
    a.hash keccak256 = b.hash keccak256 := by
  rw [FlashblocksBundle.hash, FlashblocksBundle.hash, hashInput_eq, hashInput_eq, hhashes, hbounds]

theorem SameFields.shape (h : SameFields a b) : SameShape a b where
  txs := by simpa using congrArg List.length h.txs
  revertingTxHashes := by rw [h.revertingTxHashes]
  droppingTxHashes := by rw [h.droppingTxHashes]
  bounds := by rw [h.bounds]

theorem SameShape.fields (hshape : SameShape a b) (h : a.hashInput = b.hashInput) :
    SameFields a b := by
  rw [hashInput_eq, hashInput_eq] at h
  have hcount : (hashes a).length = (hashes b).length := by
    simp [hashes, hshape.txs, hshape.revertingTxHashes, hshape.droppingTxHashes]
  obtain ⟨hhashes, hbounds⟩ := concat_append_inj hcount h
  obtain ⟨hfront, hdropping⟩ := List.append_inj' hhashes hshape.droppingTxHashes
  obtain ⟨htxs, hreverting⟩ := List.append_inj' hfront hshape.revertingTxHashes
  have hwidth : 0 < width UInt64 := by decide
  exact ⟨htxs, hreverting, hdropping, reduceOption_inj hshape.bounds (concat_inj hwidth hbounds)⟩

/-- Which of the two lists a hash is in does not show: every bundle that
allows a transaction to revert has a twin with the same transactions. -/
theorem exists_twin (h : b.revertingTxHashes ≠ []) :
    ∃ a : FlashblocksBundle Tx, a.txs = b.txs ∧ (∀ keccak256, a.hash keccak256 = b.hash keccak256) ∧
      ¬ SameFields a b := by
  obtain ⟨init, last, hlast⟩ := List.eq_nil_or_concat b.revertingTxHashes |>.resolve_left h
  refine ⟨{ b with
    revertingTxHashes := init
    droppingTxHashes := last :: b.droppingTxHashes }, rfl, ?_, fun hsame => ?_⟩
  · exact hash_eq_of_regrouped (by simp [hashes, hlast]) rfl
  · have := congrArg List.length hsame.droppingTxHashes
    simp at this

/-- **When the preimage identifies the bundle.** Two bundles that feed the
hasher the same bytes have the same fields if and only if their lists are
equally long and the same bounds are present in both. -/
theorem hashInput_identifies_iff (h : a.hashInput = b.hashInput) :
    SameFields a b ↔ SameShape a b :=
  ⟨SameFields.shape, fun hshape => hshape.fields h⟩

/-- Allowed to revert, or allowed to be dropped: the fields differ and so do
the shapes. -/
theorem hashInput_identifies_iff_twins :
    let reverting : FlashblocksBundle TxHash := { txs := [7], revertingTxHashes := [7] }
    let dropping : FlashblocksBundle TxHash := { txs := [7], droppingTxHashes := [7] }
    SameFields reverting dropping ↔ SameShape reverting dropping :=
  hashInput_identifies_iff (by decide)

/-- A bundle for blocks up to 5 and one for blocks from 5 on. -/
theorem same_hashInput_of_other_window :
    let upTo : FlashblocksBundle TxHash := { txs := [7], maxBlockNumber := some 5 }
    let fromOn : FlashblocksBundle TxHash := { txs := [7], minBlockNumber := some 5 }
    upTo.hashInput = fromOn.hashInput ∧ ¬ SameFields upTo fromOn :=
  ⟨by decide, fun h => by cases h.bounds⟩

end UnichainBuilder.BundleHash

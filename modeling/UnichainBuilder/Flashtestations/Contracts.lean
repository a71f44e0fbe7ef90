import UnichainBuilder.Lib.Bytes
import UnichainBuilder.Block

/-! # The contracts of flashtestations

`contracts.rs`: the calls that the executor encodes, the events it looks for,
and the block data that it hashes. A call stands for its own ABI encoding,
which the contract takes apart again; every call with a result returns one
32-byte word. -/
namespace UnichainBuilder.Flashtestations.Contracts
open UnichainBuilder.Lib.Bytes UnichainBuilder.Block

inductive IFlashtestationRegistry
  | permitRegisterTEEService (rawQuote extendedRegistrationData : Bytes) (nonce deadline : U256)
      (signature : Bytes)
  | computeStructHash (rawQuote extendedRegistrationData : Bytes) (nonce deadline : U256)
  | hashTypedDataV4 (structHash : B256)
  deriving DecidableEq, Repr

inductive IBlockBuilderPolicy
  | permitVerifyBlockBuilderProof (version : UInt8) (blockContentHash : B256) (nonce : U256)
      (eip712Sig : Bytes)
  | computeStructHash (version : UInt8) (blockContentHash : B256) (nonce : U256)
  | getHashedTypeDataV4 (structHash : B256)
  deriving DecidableEq, Repr

inductive IERC20Permit
  | nonces (owner : Address)
  deriving DecidableEq, Repr

inductive SolCall
  | registry (call : IFlashtestationRegistry)
  | policy (call : IBlockBuilderPolicy)
  | permit (call : IERC20Permit)
  deriving DecidableEq, Repr

/-- `T::abi_decode_returns`, for the one word that every call here returns. -/
def abiDecodeReturns (output : Bytes) : Option B256 :=
  if output.length < 32 then none else some (BitVec.ofNat 256 (ofBigEndian (output.take 32)))

theorem abiDecodeReturns_toBytes (word : B256) : abiDecodeReturns (toBytes word) = some word := by
  have hlength : (toBytes word).length = 32 := length_toBytes word
  rw [abiDecodeReturns, if_neg (by omega), List.take_of_length_le (by omega)]
  have hnat : ofBigEndian (toBytes word) = word.toNat := ofBigEndian_bigEndian word.isLt
  rw [hnat, BitVec.ofNat_toNat, BitVec.setWidth_eq]

/-! ## Events -/

namespace TEEServiceRegistered

/-- The hash of `TEEServiceRegistered(address,bytes,bool)`. -/
def signatureHash : B256 := 0x206fdb1a74851a8542447b8b6704db24a36b906a7297cc23c2b984dc357b9978

end TEEServiceRegistered

namespace BlockBuilderProofVerified

/-- The hash of `BlockBuilderProofVerified(address,bytes32,uint8,bytes32,string)`. -/
def signatureHash : B256 := 0x3fa039a23466a52e08acb25376ac7d81de184fa6549ffffb2fc920c47cb623ed

end BlockBuilderProofVerified

/-! ## Block data -/

@[ext] structure BlockData where
  parentHash : B256
  blockNumber : U256
  timestamp : U256
  transactionHashes : List B256
  deriving DecidableEq, Repr

namespace BlockData

/-- A dynamic struct by itself: its offset, then its head with the offset of
the array, then the array. -/
def words (self : BlockData) : List U256 :=
  [0x20, self.parentHash, self.blockNumber, self.timestamp, 0x80,
    BitVec.ofNat 256 self.transactionHashes.length] ++ self.transactionHashes

def abiEncode (self : BlockData) : Bytes := concat self.words

theorem abiEncode_inj {a b : BlockData} (h : a.abiEncode = b.abiEncode) : a = b := by
  have hwidth : 0 < width U256 := by decide
  have hwords := concat_inj hwidth h
  simp only [words, List.cons_append, List.nil_append, List.cons.injEq] at hwords
  obtain ⟨-, hparent, hnumber, htimestamp, -, -, hhashes⟩ := hwords
  exact BlockData.ext hparent hnumber htimestamp hhashes

end BlockData
end UnichainBuilder.Flashtestations.Contracts

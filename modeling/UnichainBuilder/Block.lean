import UnichainBuilder.Lib.RustStd

/-! # The block under construction

The part of the payload job's block context that the builder reads: the
block environment, the payload attributes of the forkchoice update and the
parent header. -/
namespace UnichainBuilder.Block
open UnichainBuilder.Lib.RustStd

abbrev B256 := BitVec 256
abbrev U256 := BitVec 256
abbrev Address := BitVec 160
abbrev Bloom := BitVec 2048
abbrev PayloadId := BitVec 64
abbrev Bytes := List UInt8

structure SealedHeader where
  hash : B256
  parentHash : B256
  number : UInt64
  timestamp : UInt64
  gasLimit : UInt64
  deriving DecidableEq, Repr, Inhabited

structure PayloadBuilderAttributes where
  parentBeaconBlockRoot : Option B256
  prevRandao : B256
  gasLimit : Option UInt64
  deriving DecidableEq, Repr, Inhabited

structure BlockContext where
  parent : SealedHeader
  attributes : PayloadBuilderAttributes
  payloadId : PayloadId
  chainId : UInt64
  number : UInt64
  timestamp : UInt64
  coinbase : Address
  baseFee : UInt64
  extraData : Bytes
  deriving DecidableEq, Repr, Inhabited

/-- The limits of a pipeline scope that the builder reads or sets. -/
structure Limits where
  gasLimit : UInt64
  deadline : Option Duration
  deriving DecidableEq, Repr, Inhabited

/-- EIP-2718 encoding of transactions. -/
class Encodable2718 (Tx : Type) where
  encoded2718 : Tx → Bytes

export Encodable2718 (encoded2718)

/-- A transaction given by its encoding. -/
instance : Encodable2718 Bytes := ⟨id⟩

end UnichainBuilder.Block

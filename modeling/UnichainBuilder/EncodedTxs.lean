import UnichainBuilder.Lib.Serde
import UnichainBuilder.Lib.Text
import UnichainBuilder.Lib.Bytes
import UnichainBuilder.Block

/-! # Transactions in JSON

The module `encoded_2718` of `bundle.rs`: a list of transactions is written as
the list of its EIP-2718 encodings in hex, and read by decoding the front of
each byte string and recovering the sender. -/
namespace UnichainBuilder.EncodedTxs
open UnichainBuilder.Lib.RustStd UnichainBuilder.Lib.Bytes UnichainBuilder.Lib.Text
open UnichainBuilder.Lib.Serde UnichainBuilder.Block

/-! ## Byte strings -/

def bytes : Codec Bytes where
  serialize bytes := .str (String.ofList ('0' :: 'x' :: encode bytes))
  deserialize
    | .str s => (decode (utf8 s.toList)).mapError fun _ =>
      .invalidValue "a variable number of bytes represented as a hex string"
    | .arr items => items.mapM Codec.u8.deserialize
    | _ => .error (.invalidType "a variable number of bytes represented as a hex string")

def b256 : Codec B256 where
  serialize hash := .str (String.ofList ('0' :: 'x' :: encode (toBytes hash)))
  deserialize
    | .str s => match decode (utf8 s.toList) with
      | .error _ => .error (.invalidValue "32 bytes, represented as a hex string of length 64")
      | .ok slice => match ofSlice slice with
        | some hash => .ok hash
        | none => .error (.invalidValue "32 bytes, represented as a hex string of length 64")
    | .arr items => do
      let slice ← items.mapM Codec.u8.deserialize
      match ofSlice slice with
      | some hash => return hash
      | none => .error (.invalidLength slice.length)
    | _ => .error (.invalidType "32 bytes, represented as a hex string of length 64")

theorem roundTrips_bytes (a : Bytes) : bytes.RoundTrips a := by
  simp only [Codec.RoundTrips, bytes, String.toList_ofList, decode_prefixed]
  rfl

theorem roundTrips_b256 (hash : B256) : b256.RoundTrips hash := by
  simp only [Codec.RoundTrips, b256, String.toList_ofList, decode_prefixed, ofSlice_toBytes]

/-! ## Transactions -/

/-- A transaction with its sender. -/
structure Recovered (Tx : Type) where
  inner : Tx
  signer : Address
  deriving DecidableEq, Repr

/-- What alloy answers about a type of transactions. Decoding returns the rest
of the buffer; errors are given by their text. -/
structure Eip2718 (Tx : Type) where
  encoded2718 : Tx → Bytes
  decode2718 : Bytes → Except String (Tx × Bytes)
  recoverSigner : Tx → Except String Address

namespace Eip2718
variable {Tx : Type} (alloy : Eip2718 Tx)

def tryIntoRecovered (tx : Tx) : Except String (Recovered Tx) :=
  (alloy.recoverSigner tx).map fun signer => ⟨tx, signer⟩

/-- The buffer that `decode_2718` advances is dropped with what it has left. -/
def decodeTx (tx : Bytes) : Except String Tx := (alloy.decode2718 tx).map Prod.fst

def serialize (txs : List (Recovered Tx)) : Json :=
  let encoded := txs.map fun tx => alloy.encoded2718 tx.inner
  bytes.vec.serialize encoded

def deserialize (json : Json) : Except DeError (List (Recovered Tx)) := do
  let encoded ← bytes.vec.deserialize json
  let txs ← (encoded.mapM alloy.decodeTx).mapError .custom
  let recovered ← (txs.mapM alloy.tryIntoRecovered).mapError .custom
  return recovered

def txs : Codec (List (Recovered Tx)) := ⟨alloy.serialize, alloy.deserialize⟩

/-- The string begins with the encoding of the transaction, whose sender is
the recovered one. -/
structure Accepts (encoded : Bytes) (tx : Recovered Tx) : Prop where
  front : ∃ rest, alloy.decode2718 encoded = .ok (tx.inner, rest)
  signer : alloy.recoverSigner tx.inner = .ok tx.signer

/-- Nothing follows the transaction in the string. -/
def Consumed (encoded : Bytes) : Prop :=
  ∀ tx rest, alloy.decode2718 encoded = .ok (tx, rest) → rest = []

variable {alloy}

theorem accepts_iff {encoded : Bytes} {recovered : Recovered Tx} :
    alloy.Accepts encoded recovered ↔
      ∃ tx, alloy.decodeTx encoded = .ok tx ∧ alloy.tryIntoRecovered tx = .ok recovered := by
  simp only [decodeTx, tryIntoRecovered, map_eq_ok, Prod.exists]
  constructor
  · intro ⟨⟨rest, hfront⟩, hsigner⟩
    exact ⟨recovered.inner, ⟨_, rest, hfront, rfl⟩, recovered.signer, hsigner, rfl⟩
  · rintro ⟨tx, ⟨_, rest, hfront, rfl⟩, signer, hsigner, rfl⟩
    exact ⟨⟨rest, hfront⟩, hsigner⟩

theorem deserialize_eq_ok {json : Json} {recovered : List (Recovered Tx)} :
    alloy.deserialize json = .ok recovered ↔
      ∃ encoded, bytes.vec.deserialize json = .ok encoded ∧
        List.Forall₂ alloy.Accepts encoded recovered := by
  have haccepts : alloy.Accepts = fun encoded recovered =>
      ∃ tx, alloy.decodeTx encoded = .ok tx ∧ alloy.tryIntoRecovered tx = .ok recovered :=
    funext₂ fun _ _ => propext accepts_iff
  rw [haccepts]
  simp only [deserialize, bind_eq_ok, mapError_eq_ok, mapM_eq_ok_iff,
    ← Codec.forall₂_comp_iff]

/-- Written and read again, transactions that carry their recovered signers
are the same. -/
theorem roundTrips_txs
    (decode_encode : ∀ tx, alloy.decode2718 (alloy.encoded2718 tx) = .ok (tx, []))
    {txs : List (Recovered Tx)}
    (signers : ∀ tx ∈ txs, alloy.recoverSigner tx.inner = .ok tx.signer) :
    alloy.txs.RoundTrips txs := by
  have hbytes : bytes.vec.RoundTrips (txs.map fun tx => alloy.encoded2718 tx.inner) :=
    Codec.RoundTrips.vec fun a _ => roundTrips_bytes a
  refine deserialize_eq_ok.mpr ⟨_, hbytes, ?_⟩
  rw [List.forall₂_map_left_iff, List.forall₂_same]
  exact fun tx hm => ⟨⟨[], decode_encode tx.inner⟩, signers tx hm⟩

/-! ## Which byte strings are accepted -/

theorem encoded_eq_iff_of_accepts
    (canonical : ∀ encoded tx rest, alloy.decode2718 encoded = .ok (tx, rest) →
      encoded = alloy.encoded2718 tx ++ rest)
    {encoded : Bytes} {tx : Recovered Tx} (h : alloy.Accepts encoded tx) :
    alloy.encoded2718 tx.inner = encoded ↔ alloy.Consumed encoded := by
  obtain ⟨rest, hfront⟩ := h.front
  have hencoded := canonical _ _ _ hfront
  constructor
  · intro heq tx' rest' hdecode
    rw [hfront] at hdecode
    cases hdecode
    rw [← heq] at hencoded
    exact List.append_right_eq_self.mp hencoded.symm
  · intro hconsumed
    rw [hencoded, hconsumed _ _ hfront, List.append_nil]

theorem encodings_eq_iff
    (canonical : ∀ encoded tx rest, alloy.decode2718 encoded = .ok (tx, rest) →
      encoded = alloy.encoded2718 tx ++ rest)
    {encoded : List Bytes} {txs : List (Recovered Tx)}
    (h : List.Forall₂ alloy.Accepts encoded txs) :
    txs.map (fun tx => alloy.encoded2718 tx.inner) = encoded ↔
      ∀ b ∈ encoded, alloy.Consumed b := by
  induction h with
  | nil => simp
  | cons haccepts _ ih =>
    rw [List.map_cons, List.cons.injEq, List.forall_mem_cons]
    exact and_congr (encoded_eq_iff_of_accepts canonical haccepts) ih

/-- **When what was accepted is written back.** If decoding reads a canonical
encoding from the front, an accepted list is the encoding of its transactions
if and only if no string goes on after its transaction. -/
theorem accepted_is_encoding_iff
    (canonical : ∀ encoded tx rest, alloy.decode2718 encoded = .ok (tx, rest) →
      encoded = alloy.encoded2718 tx ++ rest)
    {json : Json} {encoded : List Bytes} {txs : List (Recovered Tx)}
    (read : bytes.vec.deserialize json = .ok encoded)
    (accepted : alloy.deserialize json = .ok txs) :
    alloy.serialize txs = bytes.vec.serialize encoded ↔ ∀ b ∈ encoded, alloy.Consumed b := by
  obtain ⟨encoded', hread, hall⟩ := deserialize_eq_ok.mp accepted
  rw [read] at hread
  cases hread
  have hinjective := Codec.serialize_injective (c := bytes.vec) fun a =>
    Codec.RoundTrips.vec fun b _ => roundTrips_bytes b
  have hserialize : alloy.serialize txs = bytes.vec.serialize encoded ↔
      txs.map (fun tx => alloy.encoded2718 tx.inner) = encoded := hinjective.eq_iff
  exact hserialize.trans (encodings_eq_iff canonical hall)

/-- What alloy answers as far as a single transaction goes. -/
def known (envelope : Bytes) (sender : Address) : Eip2718 Unit where
  encoded2718 _ := envelope
  decode2718 buf :=
    if envelope <+: buf then .ok ((), buf.drop envelope.length) else .error "unexpected type flag"
  recoverSigner _ := .ok sender

theorem known_decode (envelope : Bytes) (sender : Address) (rest : Bytes) :
    (known envelope sender).decode2718 (envelope ++ rest) = .ok ((), rest) := by
  simp only [known, if_pos (List.prefix_append envelope rest), List.drop_left]

theorem known_canonical (envelope : Bytes) (sender : Address) (encoded : Bytes) (tx : Unit)
    (rest : Bytes) (h : (known envelope sender).decode2718 encoded = .ok (tx, rest)) :
    encoded = (known envelope sender).encoded2718 tx ++ rest := by
  simp only [known] at h
  split at h
  · rename_i hfront
    obtain ⟨tail, rfl⟩ := hfront
    rw [List.drop_left] at h
    cases h
    rfl
  · cases h

/-- A signed transfer and its sender. -/
def transfer : Bytes :=
  [0xf8, 0x6c, 0x09, 0x85, 0x04, 0xa8, 0x17, 0xc8, 0x00, 0x82, 0x52, 0x08, 0x94, 0x35, 0x35, 0x35,
    0x35, 0x35, 0x35, 0x35, 0x35, 0x35, 0x35, 0x35, 0x35, 0x35, 0x35, 0x35, 0x35, 0x35, 0x35, 0x35,
    0x35, 0x88, 0x0d, 0xe0, 0xb6, 0xb3, 0xa7, 0x64, 0x00, 0x00, 0x80, 0x25, 0xa0, 0x28, 0xef, 0x61,
    0x34, 0x0b, 0xd9, 0x39, 0xbc, 0x21, 0x95, 0xfe, 0x53, 0x75, 0x67, 0x86, 0x60, 0x03, 0xe1, 0xa1,
    0x5d, 0x3c, 0x71, 0xff, 0x63, 0xe1, 0x59, 0x06, 0x20, 0xaa, 0x63, 0x62, 0x76, 0xa0, 0x67, 0xcb,
    0xe9, 0xd8, 0x99, 0x7f, 0x76, 0x1a, 0xec, 0xb7, 0x03, 0x30, 0x4b, 0x38, 0x00, 0xcc, 0xf5, 0x55,
    0xc9, 0xf3, 0xdc, 0x64, 0x21, 0x4b, 0x29, 0x7f, 0xb1, 0x96, 0x6a, 0x3b, 0x6d, 0x83]

def transferSender : Address := 0x9d8a62f656a8d1615c1294fd71e9cfb3e4855a4f

/-- With `rest` behind it the transfer is accepted all the same. -/
theorem deserialize_transfer (rest : Bytes) :
    (known transfer transferSender).deserialize (bytes.vec.serialize [transfer ++ rest]) =
      .ok [⟨(), transferSender⟩] := by
  have hread : bytes.vec.RoundTrips [transfer ++ rest] :=
    Codec.RoundTrips.vec fun b _ => roundTrips_bytes b
  refine deserialize_eq_ok.mpr ⟨_, hread, .cons ⟨⟨rest, ?_⟩, rfl⟩ .nil⟩
  exact known_decode transfer transferSender rest

/-- The transfer with nothing behind it. -/
theorem accepted_is_encoding_transfer :
    (known transfer transferSender).serialize [⟨(), transferSender⟩] =
      bytes.vec.serialize [transfer] := by
  have hread : bytes.vec.RoundTrips [transfer] := Codec.RoundTrips.vec fun b _ => roundTrips_bytes b
  have haccepted := deserialize_transfer []
  rw [List.append_nil] at haccepted
  refine (accepted_is_encoding_iff (known_canonical _ _) hread haccepted).mpr ?_
  intro b hb tx rest h
  rw [List.mem_singleton.mp hb] at h
  exact List.append_right_eq_self.mp (known_canonical _ _ _ _ _ h).symm

/-- A byte too many, accepted and lost. -/
theorem accepted_with_trailing_byte :
    let accepted := [transfer ++ [0]]
    (known transfer transferSender).deserialize (bytes.vec.serialize accepted) =
        .ok [⟨(), transferSender⟩] ∧
      (known transfer transferSender).serialize [⟨(), transferSender⟩] ≠
        bytes.vec.serialize accepted := by
  refine ⟨deserialize_transfer [0], fun h => ?_⟩
  have hinjective := Codec.serialize_injective (c := bytes.vec) fun a =>
    Codec.RoundTrips.vec fun b _ => roundTrips_bytes b
  have hlength := congrArg (List.map List.length) (hinjective h)
  revert hlength
  decide

end Eip2718
end UnichainBuilder.EncodedTxs

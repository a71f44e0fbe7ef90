import UnichainBuilder.BundleJson

/-! # Who an admitted bundle acts for

The transactions of a bundle are `OpTxEnvelope`s. For the signed kinds the
recovered sender is the address that made the signature; a deposit names its
sender itself, and is decoded and recovered like the others. -/
namespace UnichainBuilder.BundleSenders
open UnichainBuilder.Lib.RustStd UnichainBuilder.Lib.Serde UnichainBuilder.Block
open UnichainBuilder.Bundle UnichainBuilder.EncodedTxs UnichainBuilder.BundleJson

structure Signature where
  r : U256
  s : U256
  yParity : Bool
  deriving DecidableEq, Repr

structure Signed where
  /-- What is signed: the fields of the transaction without the signature. -/
  encodedForSigning : Bytes
  signature : Signature
  deriving DecidableEq, Repr

structure TxDeposit where
  /-- The field `from`. -/
  sender : Address
  deriving DecidableEq, Repr

inductive OpTxEnvelope
  | legacy (tx : Signed)
  | eip2930 (tx : Signed)
  | eip1559 (tx : Signed)
  | eip7702 (tx : Signed)
  | deposit (tx : TxDeposit)
  deriving DecidableEq, Repr

namespace OpTxEnvelope

def signed : OpTxEnvelope → Option Signed
  | .legacy tx | .eip2930 tx | .eip1559 tx | .eip7702 tx => some tx
  | .deposit _ => none

def recoverSigner (keccak256 : Bytes → B256) (ecrecover : Signature → B256 → Option Address) :
    OpTxEnvelope → Except String Address
  | .legacy tx | .eip2930 tx | .eip1559 tx | .eip7702 tx =>
    match ecrecover tx.signature (keccak256 tx.encodedForSigning) with
    | some signer => .ok signer
    | none => .error "Failed to recover the signer"
  | .deposit tx => .ok tx.sender

end OpTxEnvelope

/-- The sender is the address that made the signature in the transaction. -/
def Authenticated (keccak256 : Bytes → B256) (ecrecover : Signature → B256 → Option Address)
    (tx : Recovered OpTxEnvelope) : Prop :=
  ∃ signed, tx.inner.signed = some signed ∧
    ecrecover signed.signature (keccak256 signed.encodedForSigning) = some tx.signer

/-- `OpTxEnvelope` with its codec. -/
def alloy (keccak256 : Bytes → B256) (ecrecover : Signature → B256 → Option Address)
    (encoded2718 : OpTxEnvelope → Bytes)
    (decode2718 : Bytes → Except String (OpTxEnvelope × Bytes)) : Eip2718 OpTxEnvelope where
  encoded2718
  decode2718
  recoverSigner := OpTxEnvelope.recoverSigner keccak256 ecrecover

/-- The byte strings in the member `txs`. -/
def txStrings {Tx : Type} (library : Eip2718 Tx) (quantity : Codec UInt64) (json : Json) :
    List Bytes :=
  match (fields library quantity).member .txs json with
  | some v => (bytes.vec.deserialize v).toOption.getD []
  | none => []

def depositType : UInt8 := 0x7e

section
variable {keccak256 : Bytes → B256} {ecrecover : Signature → B256 → Option Address}
variable {encode : OpTxEnvelope → Bytes} {decode : Bytes → Except String (OpTxEnvelope × Bytes)}
variable {quantity : Codec UInt64}

theorem authenticated_iff_of_recovered {tx : Recovered OpTxEnvelope}
    (h : tx.inner.recoverSigner keccak256 ecrecover = .ok tx.signer) :
    Authenticated keccak256 ecrecover tx ↔ ∀ deposit, tx.inner ≠ .deposit deposit := by
  obtain ⟨inner, signer⟩ := tx
  cases inner with
  | deposit tx => simp [Authenticated, OpTxEnvelope.signed]
  | legacy tx | eip2930 tx | eip1559 tx | eip7702 tx =>
    simp only [OpTxEnvelope.recoverSigner] at h
    cases hrecover : ecrecover tx.signature (keccak256 tx.encodedForSigning) with
    | none =>
      rw [hrecover] at h
      cases h
    | some address =>
      rw [hrecover] at h
      cases h
      exact iff_of_true ⟨tx, rfl, hrecover⟩ fun _ h => by cases h

theorem authenticated_iff_of_accepts
    (deposits : ∀ encoded tx rest, decode encoded = .ok (tx, rest) →
      ((∃ deposit, tx = .deposit deposit) ↔ encoded.head? = some depositType))
    {encoded : Bytes} {tx : Recovered OpTxEnvelope}
    (h : (alloy keccak256 ecrecover encode decode).Accepts encoded tx) :
    Authenticated keccak256 ecrecover tx ↔ encoded.head? ≠ some depositType := by
  obtain ⟨rest, hfront⟩ := h.front
  rw [authenticated_iff_of_recovered h.signer, Ne, ← deposits _ _ _ hfront, not_exists]

/-- What the deserializer accepts are the strings of the member `txs`. -/
theorem accepts_txStrings {json : Json} {b : FlashblocksBundle (Recovered OpTxEnvelope)}
    (h : deserialize (alloy keccak256 ecrecover encode decode) quantity json = .ok b) :
    List.Forall₂ (alloy keccak256 ecrecover encode decode).Accepts
      (txStrings (alloy keccak256 ecrecover encode decode) quantity json) b.txs := by
  obtain ⟨v, hmember, hread⟩ := txs_of_deserialize h
  obtain ⟨encoded, hencoded, hall⟩ := Eip2718.deserialize_eq_ok.mp hread
  have hstrings : txStrings (alloy keccak256 ecrecover encode decode) quantity json = encoded := by
    rw [txStrings, hmember]
    simp only [hencoded]
    rfl
  rw [hstrings]
  exact hall

/-- **When the sender of an admitted bundle is authenticated.** A bundle that
is not turned away has a single transaction, and its sender is authenticated
if and only if it is not a deposit. -/
theorem sender_authenticated_iff
    (deposits : ∀ encoded tx rest, decode encoded = .ok (tx, rest) →
      ((∃ deposit, tx = .deposit deposit) ↔ encoded.head? = some depositType))
    {json : Json} {b : FlashblocksBundle (Recovered OpTxEnvelope)} {header : SealedHeader}
    (read : deserialize (alloy keccak256 ecrecover encode decode) quantity json = .ok b)
    (admitted : b.isPermanentlyIneligible header = false) :
    ∃ encoded, txStrings (alloy keccak256 ecrecover encode decode) quantity json = [encoded] ∧
      ((∀ tx ∈ b.txs, Authenticated keccak256 ecrecover tx) ↔
        encoded.head? ≠ some depositType) := by
  have hall := accepts_txStrings read
  obtain ⟨tx, htxs⟩ := FlashblocksBundle.exists_single_of_admitted admitted
  rw [htxs] at hall
  obtain ⟨encoded, strings, haccepts, hnil, hstrings⟩ := List.forall₂_cons_right_iff.mp hall
  rw [List.forall₂_nil_right_iff.mp hnil] at hstrings
  refine ⟨encoded, hstrings, ?_⟩
  rw [htxs, List.forall_mem_singleton]
  exact authenticated_iff_of_accepts deposits haccepts

end

/-! ## A transfer and a deposit -/

/-- The signed transfer taken apart. -/
def signedTransfer : Signed where
  encodedForSigning :=
    [0xec, 0x09, 0x85, 0x04, 0xa8, 0x17, 0xc8, 0x00, 0x82, 0x52, 0x08, 0x94] ++
      List.replicate 20 0x35 ++
      [0x88, 0x0d, 0xe0, 0xb6, 0xb3, 0xa7, 0x64, 0x00, 0x00, 0x80, 0x01, 0x80, 0x80]
  signature := {
    r := 0x28ef61340bd939bc2195fe537567866003e1a15d3c71ff63e1590620aa636276
    s := 0x67cbe9d8997f761aecb703304b3800ccf555c9f3dc64214b297fb1966a3b6d83
    yParity := false }

/-- A deposit that claims to come from an account. -/
def claimedSender : Address := 0x1111111111111111111111111111111111111111

def depositTx : Bytes :=
  [depositType, 0xf8, 0x50, 0xa0] ++ List.replicate 32 0 ++ 0x94 :: List.replicate 20 0x11 ++
    0x94 :: List.replicate 20 0x22 ++ List.replicate 5 0x80

def decodeKnown (buf : Bytes) : Except String (OpTxEnvelope × Bytes) :=
  if Eip2718.transfer <+: buf then
    .ok (.legacy signedTransfer, buf.drop Eip2718.transfer.length)
  else if depositTx <+: buf then
    .ok (.deposit ⟨claimedSender⟩, buf.drop depositTx.length)
  else .error "unexpected type flag"

def encodeKnown : OpTxEnvelope → Bytes
  | .deposit _ => depositTx
  | _ => Eip2718.transfer

/-- The hash of what the transfer signs. -/
def keccakKnown (_ : Bytes) : B256 :=
  0xdaf5a779ae972f972197303d7b574746c7ef83eadac0f2791ad23db92e4c8e53

def ecrecoverKnown (_ : Signature) (_ : B256) : Option Address := some Eip2718.transferSender

/-- What alloy answers as far as these two transactions go. -/
def knownAlloy : Eip2718 OpTxEnvelope := alloy keccakKnown ecrecoverKnown encodeKnown decodeKnown

theorem decodeKnown_deposits (encoded : Bytes) (tx : OpTxEnvelope) (rest : Bytes)
    (h : decodeKnown encoded = .ok (tx, rest)) :
    (∃ deposit, tx = .deposit deposit) ↔ encoded.head? = some depositType := by
  unfold decodeKnown at h
  split at h
  · rename_i hfront
    obtain ⟨tail, rfl⟩ := hfront
    cases h
    refine iff_of_false (fun ⟨_, h⟩ => by cases h) fun h => ?_
    have hhead : (Eip2718.transfer ++ tail).head? = some 0xf8 := rfl
    rw [hhead] at h
    revert h
    decide
  · split at h
    · rename_i hfront
      obtain ⟨tail, rfl⟩ := hfront
      cases h
      exact iff_of_true ⟨_, rfl⟩ rfl
    · cases h

theorem accepts_transfer :
    knownAlloy.Accepts Eip2718.transfer ⟨.legacy signedTransfer, Eip2718.transferSender⟩ where
  front := ⟨[], by
    simp only [knownAlloy, alloy, decodeKnown, if_pos List.prefix_rfl, List.drop_length]⟩
  signer := rfl

theorem accepts_depositTx :
    knownAlloy.Accepts depositTx ⟨.deposit ⟨claimedSender⟩, claimedSender⟩ where
  front := ⟨[], by
    have hother : ¬ Eip2718.transfer <+: depositTx := by decide
    simp only [knownAlloy, alloy, decodeKnown, if_neg hother, if_pos List.prefix_rfl,
      List.drop_length]⟩
  signer := rfl

/-- A bundle of one byte string. -/
def bundleOf (encoded : Bytes) : Json := .obj [("txs", bytes.vec.serialize [encoded])]

theorem deserialize_bundleOf {encoded : Bytes} {tx : Recovered OpTxEnvelope}
    (h : knownAlloy.Accepts encoded tx) :
    deserialize knownAlloy hexQuantity (bundleOf encoded) = .ok { txs := [tx] } :=
  deserialize_txs (Eip2718.deserialize_eq_ok.mpr
    ⟨[encoded], Codec.RoundTrips.vec fun b _ => roundTrips_bytes b, .cons h .nil⟩)

/-- The signed transfer is admitted for who signed it. -/
theorem sender_authenticated_transfer :
    let tx : Recovered OpTxEnvelope := ⟨.legacy signedTransfer, Eip2718.transferSender⟩
    ∃ encoded, txStrings knownAlloy hexQuantity (bundleOf Eip2718.transfer) = [encoded] ∧
      ((∀ t ∈ [tx], Authenticated keccakKnown ecrecoverKnown t) ↔
        encoded.head? ≠ some depositType) := by
  intro tx
  have admitted : ({ txs := [tx] } : FlashblocksBundle _).isPermanentlyIneligible default = false :=
    rfl
  exact sender_authenticated_iff decodeKnown_deposits (deserialize_bundleOf accepts_transfer)
    admitted

/-- The deposit is admitted for the account that it names. -/
theorem deposit_admitted :
    let b : FlashblocksBundle (Recovered OpTxEnvelope) :=
      { txs := [⟨.deposit ⟨claimedSender⟩, claimedSender⟩] }
    deserialize knownAlloy hexQuantity (bundleOf depositTx) = .ok b ∧
      b.isPermanentlyIneligible default = false ∧
      ¬ ∀ tx ∈ b.txs, Authenticated keccakKnown ecrecoverKnown tx := by
  intro b
  refine ⟨deserialize_bundleOf accepts_depositTx, rfl, fun h => ?_⟩
  obtain ⟨signed, hsigned, _⟩ := h _ (List.mem_singleton_self _)
  cases hsigned

end UnichainBuilder.BundleSenders

import UnichainBuilder.EncodedTxs
import UnichainBuilder.Bundle

/-! # The bundle in JSON

The derived serializer and deserializer of `FlashblocksBundle`: nine fields in
four encodings. All but the transactions have a default, which is what the
field is when it is left out. -/
namespace UnichainBuilder.BundleJson
open UnichainBuilder.Lib.RustStd UnichainBuilder.Lib.Text UnichainBuilder.Lib.Serde
open UnichainBuilder.Block UnichainBuilder.Bundle UnichainBuilder.EncodedTxs

inductive Key
  | txs
  | revertingTxHashes
  | droppingTxHashes
  | minBlockNumber
  | maxBlockNumber
  | minTimestamp
  | maxTimestamp
  | minFlashblockNumber
  | maxFlashblockNumber
  deriving DecidableEq

abbrev Ty (Tx : Type) : Key → Type
  | .txs => List (Recovered Tx)
  | .revertingTxHashes | .droppingTxHashes => List B256
  | .minBlockNumber | .maxBlockNumber | .minTimestamp | .maxTimestamp | .minFlashblockNumber
  | .maxFlashblockNumber => Option UInt64

def Key.name : Key → String
  | .txs => "txs"
  | .revertingTxHashes => "revertingTxHashes"
  | .droppingTxHashes => "droppingTxHashes"
  | .minBlockNumber => "minBlockNumber"
  | .maxBlockNumber => "maxBlockNumber"
  | .minTimestamp => "minTimestamp"
  | .maxTimestamp => "maxTimestamp"
  | .minFlashblockNumber => "minFlashblockNumber"
  | .maxFlashblockNumber => "maxFlashblockNumber"

theorem Key.name_injective : Function.Injective Key.name := by
  intro a b h
  cases a <;> cases b <;> first | rfl | (revert h; decide)

def hashes (name : String) : StructField (List B256) :=
  { b256.vec with name, default := some [], skipIf := List.isEmpty }

/-- `quantity::opt`. -/
def quantityOpt (quantity : Codec UInt64) (name : String) : StructField (Option UInt64) :=
  { quantity.option with name, default := some none, skipIf := Option.isNone }

def plainOpt (name : String) : StructField (Option UInt64) :=
  { Codec.u64.option with name, default := some none, skipIf := Option.isNone }

variable {Tx : Type} (alloy : Eip2718 Tx) (quantity : Codec UInt64)

def field : ∀ key, StructField (Ty Tx key)
  | .txs => { alloy.txs with name := Key.name .txs }
  | .revertingTxHashes => hashes (Key.name .revertingTxHashes)
  | .droppingTxHashes => hashes (Key.name .droppingTxHashes)
  | .minBlockNumber => quantityOpt quantity (Key.name .minBlockNumber)
  | .maxBlockNumber => quantityOpt quantity (Key.name .maxBlockNumber)
  | .minTimestamp => plainOpt (Key.name .minTimestamp)
  | .maxTimestamp => plainOpt (Key.name .maxTimestamp)
  | .minFlashblockNumber => quantityOpt quantity (Key.name .minFlashblockNumber)
  | .maxFlashblockNumber => quantityOpt quantity (Key.name .maxFlashblockNumber)

theorem name_field (key : Key) : (field alloy quantity key).name = key.name := by
  cases key <;> rfl

def fields : Struct Key (Ty Tx) where
  fields := [.txs, .revertingTxHashes, .droppingTxHashes, .minBlockNumber, .maxBlockNumber,
    .minTimestamp, .maxTimestamp, .minFlashblockNumber, .maxFlashblockNumber]
  field := field alloy quantity
  mem_fields key := by cases key <;> decide
  nodup_fields := by decide
  names_injective a b h :=
    Key.name_injective ((name_field alloy quantity a).symm.trans
      (h.trans (name_field alloy quantity b)))

/-- What a bundle assigns to its fields. -/
def values (b : FlashblocksBundle (Recovered Tx)) : ∀ key, Ty Tx key
  | .txs => b.txs
  | .revertingTxHashes => b.revertingTxHashes
  | .droppingTxHashes => b.droppingTxHashes
  | .minBlockNumber => b.minBlockNumber
  | .maxBlockNumber => b.maxBlockNumber
  | .minTimestamp => b.minTimestamp
  | .maxTimestamp => b.maxTimestamp
  | .minFlashblockNumber => b.minFlashblockNumber
  | .maxFlashblockNumber => b.maxFlashblockNumber

def serialize (b : FlashblocksBundle (Recovered Tx)) : Json :=
  (fields alloy quantity).serialize (values b)

def deserialize (json : Json) : Except DeError (FlashblocksBundle (Recovered Tx)) := do
  let slots ← (fields alloy quantity).visit json
  let txs ← (fields alloy quantity).finish slots .txs
  let revertingTxHashes ← (fields alloy quantity).finish slots .revertingTxHashes
  let droppingTxHashes ← (fields alloy quantity).finish slots .droppingTxHashes
  let minBlockNumber ← (fields alloy quantity).finish slots .minBlockNumber
  let maxBlockNumber ← (fields alloy quantity).finish slots .maxBlockNumber
  let minTimestamp ← (fields alloy quantity).finish slots .minTimestamp
  let maxTimestamp ← (fields alloy quantity).finish slots .maxTimestamp
  let minFlashblockNumber ← (fields alloy quantity).finish slots .minFlashblockNumber
  let maxFlashblockNumber ← (fields alloy quantity).finish slots .maxFlashblockNumber
  return { txs, revertingTxHashes, droppingTxHashes, minBlockNumber, maxBlockNumber, minTimestamp,
           maxTimestamp, minFlashblockNumber, maxFlashblockNumber }

variable {alloy quantity}

/-- What is read is read field by field. -/
theorem deserialize_eq_ok {json : Json} {b : FlashblocksBundle (Recovered Tx)} :
    deserialize alloy quantity json = .ok b ↔
      ∃ slots, (fields alloy quantity).visit json = .ok slots ∧
        ∀ key, (fields alloy quantity).finish slots key = .ok (values b key) := by
  simp only [deserialize, bind_eq_ok, pure_eq_ok]
  refine exists_congr fun slots => and_congr_right fun _ => ?_
  constructor
  · rintro ⟨_, h1, _, h2, _, h3, _, h4, _, h5, _, h6, _, h7, _, h8, _, h9, rfl⟩ key
    cases key <;> assumption
  · intro h
    exact ⟨_, h .txs, _, h .revertingTxHashes, _, h .droppingTxHashes, _, h .minBlockNumber, _,
      h .maxBlockNumber, _, h .minTimestamp, _, h .maxTimestamp, _, h .minFlashblockNumber, _,
      h .maxFlashblockNumber, rfl⟩

/-- The transactions come from the member `txs`, which has no default. -/
theorem txs_of_deserialize {json : Json} {b : FlashblocksBundle (Recovered Tx)}
    (h : deserialize alloy quantity json = .ok b) :
    ∃ v, (fields alloy quantity).member .txs json = some v ∧ alloy.deserialize v = .ok b.txs := by
  obtain ⟨slots, hvisit, hfinish⟩ := deserialize_eq_ok.mp h
  have htxs := hfinish .txs
  cases hslot : slots .txs with
  | none =>
    simp only [Struct.finish, hslot] at htxs
    cases htxs
  | some txs =>
    simp only [Struct.finish, hslot] at htxs
    have hb : txs = b.txs := Except.ok.inj htxs
    rw [← hb]
    exact Struct.member_of_visit hvisit hslot

/-- Nothing but transactions. -/
theorem deserialize_txs {v : Json} {txs : List (Recovered Tx)} (h : alloy.deserialize v = .ok txs) :
    deserialize alloy quantity (.obj [("txs", v)]) = .ok { txs } := by
  have hvisit : (fields alloy quantity).visit (.obj [("txs", v)]) =
      .ok (Function.update (fun _ => none) .txs (some txs)) := by
    have hnamed : (fields alloy quantity).fieldNamed "txs" = some .txs :=
      (fields alloy quantity).fieldNamed_name .txs
    have hread : ((fields alloy quantity).field .txs).deserialize v = .ok txs := h
    simp only [Struct.visit, Struct.visitMap, List.foldlM_cons, List.foldlM_nil, Struct.visitEntry,
      hnamed, hread]
    rfl
  refine deserialize_eq_ok.mpr ⟨_, hvisit, fun key => ?_⟩
  cases key <;> rfl

/-! ## Round trips -/

theorem roundTrips_hashes (name : String) (value : List B256) :
    (hashes name).RoundTrips value :=
  Codec.RoundTrips.vec fun hash _ => roundTrips_b256 hash

theorem roundTrips_quantityOpt (quantity_string : ∀ n, ∃ text, quantity.serialize n = .str text)
    (quantity_roundTrip : ∀ n, quantity.RoundTrips n) (name : String) (value : Option UInt64) :
    (quantityOpt quantity name).RoundTrips value := by
  refine Codec.RoundTrips.option (fun n _ => quantity_roundTrip n) fun n _ hnull => ?_
  obtain ⟨text, htext⟩ := quantity_string n
  rw [htext] at hnull
  cases hnull

theorem roundTrips_plainOpt (name : String) (value : Option UInt64) :
    (plainOpt name).RoundTrips value :=
  Codec.RoundTrips.option (fun n _ => Codec.roundTrips_u64 n) fun _ _ hnull => by cases hnull

/-- A field is left out only where it is its own default. -/
theorem default_of_skipIf {key : Key} {value : Ty Tx key}
    (h : (field alloy quantity key).skipIf value = true) :
    (field alloy quantity key).default = some value := by
  cases key with
  | txs => cases h
  | revertingTxHashes | droppingTxHashes =>
    rw [List.isEmpty_iff.mp h]
    rfl
  | minBlockNumber | maxBlockNumber | minTimestamp | maxTimestamp | minFlashblockNumber
  | maxFlashblockNumber =>
    rw [Option.isNone_iff_eq_none.mp h]
    rfl

/-- **A bundle survives its JSON.** Whatever fields it has, a bundle whose
transactions carry their recovered signers is read back as it was written. -/
theorem bundle_roundTrip
    (decode_encode : ∀ tx, alloy.decode2718 (alloy.encoded2718 tx) = .ok (tx, []))
    (quantity_string : ∀ n, ∃ text, quantity.serialize n = .str text)
    (quantity_roundTrip : ∀ n, quantity.RoundTrips n) {b : FlashblocksBundle (Recovered Tx)}
    (signers : ∀ tx ∈ b.txs, alloy.recoverSigner tx.inner = .ok tx.signer) :
    deserialize alloy quantity (serialize alloy quantity b) = .ok b := by
  have hwritten : ∀ key, (field alloy quantity key).RoundTrips (values b key) := by
    intro key
    cases key with
    | txs => exact Eip2718.roundTrips_txs decode_encode signers
    | revertingTxHashes | droppingTxHashes => exact roundTrips_hashes _ _
    | minTimestamp | maxTimestamp => exact roundTrips_plainOpt _ _
    | minBlockNumber | maxBlockNumber | minFlashblockNumber | maxFlashblockNumber =>
      exact roundTrips_quantityOpt quantity_string quantity_roundTrip _ _
  exact deserialize_eq_ok.mpr
    ((fields alloy quantity).roundTrip (values b) (fun key _ => hwritten key) fun _ =>
      default_of_skipIf)

/-- Quantities as hex without leading zeros, or as plain numbers. A string that
is empty, has no prefix or has underscores is read differently by alloy. -/
def hexQuantity : Codec UInt64 where
  serialize n := .str (String.ofList ('0' :: 'x' :: encodeNat n.toNat))
  deserialize
    | .str s => match (decodeNat (stripPrefix (utf8 s.toList))).bind u64TryFrom with
      | some n => .ok n
      | none => .error (.invalidValue "a 64-bit quantity")
    | .number (.pos n) => .ok n
    | _ => .error (.invalidType "a 64-bit quantity")

theorem roundTrips_hexQuantity (n : UInt64) : hexQuantity.RoundTrips n := by
  have hprefix : stripPrefix (utf8 ('0' :: 'x' :: encodeNat n.toNat)) = utf8 (encodeNat n.toNat) :=
    rfl
  have hfits : u64TryFrom n.toNat = some n := u64TryFrom_eq_some.mpr rfl
  simp only [Codec.RoundTrips, hexQuantity, String.toList_ofList, hprefix, decodeNat_encodeNat,
    Option.bind_some, hfits]

/-- A transfer with one hash list and bounds of either encoding. -/
theorem bundle_roundTrip_transfer :
    let alloy := Eip2718.known Eip2718.transfer Eip2718.transferSender
    let b : FlashblocksBundle (Recovered Unit) :=
      { txs := [⟨(), Eip2718.transferSender⟩], revertingTxHashes := [1], minBlockNumber := some 10,
        maxTimestamp := some 1700000000 }
    deserialize alloy hexQuantity (serialize alloy hexQuantity b) = .ok b := by
  intro alloy b
  have decode_encode : ∀ tx, alloy.decode2718 (alloy.encoded2718 tx) = .ok (tx, []) := by
    intro tx
    have h := Eip2718.known_decode Eip2718.transfer Eip2718.transferSender []
    rwa [List.append_nil] at h
  have signers : ∀ tx ∈ b.txs, alloy.recoverSigner tx.inner = .ok tx.signer := by
    intro tx hm
    rw [List.mem_singleton.mp hm]
    rfl
  exact bundle_roundTrip decode_encode (fun _ => ⟨_, rfl⟩) roundTrips_hexQuantity signers

end UnichainBuilder.BundleJson

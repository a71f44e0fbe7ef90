import UnichainBuilder.BundleJson

/-! # What is accepted as a bundle

The derived deserializer takes objects and arrays. Which of them are bundles,
and of which bundle, depends on what they give for each of the nine fields and
on nothing else. -/
namespace UnichainBuilder.BundleAcceptance
open UnichainBuilder.Lib.RustStd UnichainBuilder.Lib.Text UnichainBuilder.Lib.Serde
open UnichainBuilder.Block UnichainBuilder.Bundle UnichainBuilder.EncodedTxs
open UnichainBuilder.BundleJson

section
variable {Tx : Type} (alloy : Eip2718 Tx) (quantity : Codec UInt64)

/-- What a JSON value gives for a field of the bundle. -/
def given (key : Key) (json : Json) : List Json := (fields alloy quantity).given key json

/-- An object, or an array of at most nine items. -/
def Shaped (json : Json) : Prop := (fields alloy quantity).Shaped json

/-- The field is given once and reads as `value`, or is left out where a
bundle with that value leaves it out when it is written. -/
def Agrees (key : Key) (json : Json) (value : Ty Tx key) : Prop :=
  (given alloy quantity key json = [] ∧ (field alloy quantity key).skipIf value = true) ∨
    ∃ v, given alloy quantity key json = [v] ∧
      (field alloy quantity key).deserialize v = .ok value

variable {alloy quantity}

theorem default_iff_skipIf {key : Key} {value : Ty Tx key} :
    (field alloy quantity key).default = some value ↔
      (field alloy quantity key).skipIf value = true := by
  refine ⟨fun h => ?_, default_of_skipIf⟩
  cases key with
  | txs => cases h
  | revertingTxHashes | droppingTxHashes =>
    cases h
    rfl
  | minBlockNumber | maxBlockNumber | minTimestamp | maxTimestamp | minFlashblockNumber
  | maxFlashblockNumber =>
    cases h
    rfl

theorem agrees_iff {key : Key} {json : Json} {value : Ty Tx key} :
    Agrees alloy quantity key json value ↔
      (fields alloy quantity).Reads key (given alloy quantity key json) value := by
  unfold Agrees
  match given alloy quantity key json with
  | [] =>
    have hdefault : (((fields alloy quantity).field key).default = some value) ↔
        (field alloy quantity key).skipIf value = true := default_iff_skipIf
    simp [Struct.Reads, hdefault]
  | [v] => simp [Struct.Reads, fields]
  | _ :: _ :: _ => simp [Struct.Reads]

theorem deserialize_iff_reads {json : Json} {b : FlashblocksBundle (Recovered Tx)} :
    deserialize alloy quantity json = .ok b ↔
      Shaped alloy quantity json ∧
        ∀ key, (fields alloy quantity).Reads key (given alloy quantity key json) (values b key) :=
  deserialize_eq_ok.trans Struct.visit_finish_iff

/-- **What is accepted, and as what.** A value deserializes to a bundle if and
only if it has the shape and agrees with the bundle on every field. -/
theorem accepted_iff (json : Json) (b : FlashblocksBundle (Recovered Tx)) :
    deserialize alloy quantity json = .ok b ↔
      Shaped alloy quantity json ∧ ∀ key, Agrees alloy quantity key json (values b key) := by
  simp only [deserialize_iff_reads, agrees_iff]

/-- Two values of the shape that give the same for every field, in any order. -/
theorem accepted_congr {json json' : Json} (hjson : Shaped alloy quantity json)
    (hjson' : Shaped alloy quantity json')
    (h : ∀ key, (given alloy quantity key json).Perm (given alloy quantity key json'))
    (b : FlashblocksBundle (Recovered Tx)) :
    deserialize alloy quantity json = .ok b ↔ deserialize alloy quantity json' = .ok b := by
  rw [deserialize_iff_reads, deserialize_iff_reads, and_iff_right hjson, and_iff_right hjson']
  exact forall_congr' fun key => Struct.reads_perm (h key)

/-- **The order of the members does not matter**, and neither do members of
other names: two objects with the same members of the bundle's names are the
same bundle, or none is one. -/
theorem accepted_in_any_order {entries entries' : List (String × Json)}
    (h : (entries.filter (fields alloy quantity).known).Perm
      (entries'.filter (fields alloy quantity).known)) (b : FlashblocksBundle (Recovered Tx)) :
    deserialize alloy quantity (.obj entries) = .ok b ↔
      deserialize alloy quantity (.obj entries') = .ok b := by
  have hobject : ∀ members, Shaped alloy quantity (.obj members) := fun _ => trivial
  refine accepted_congr (hobject entries) (hobject entries') (fun key => ?_) b
  have hmembers := Struct.members_perm (s := fields alloy quantity) (f := key) h
  rwa [Struct.members_filter_known, Struct.members_filter_known] at hmembers

end

/-! ## A transfer -/

def transferJson : Json := bytes.vec.serialize [Eip2718.transfer ++ []]

/-- In front of a bound. -/
theorem deserialize_bounded :
    deserialize (Eip2718.known Eip2718.transfer Eip2718.transferSender) hexQuantity
        (.obj [("txs", transferJson), ("minTimestamp", .number (.pos 5))]) =
      .ok { txs := [⟨(), Eip2718.transferSender⟩], minTimestamp := some 5 } := by
  have hshaped : Shaped (Eip2718.known Eip2718.transfer Eip2718.transferSender) hexQuantity
      (.obj [("txs", transferJson), ("minTimestamp", .number (.pos 5))]) := trivial
  refine deserialize_iff_reads.mpr ⟨hshaped, fun key => ?_⟩
  cases key with
  | txs => exact Eip2718.deserialize_transfer []
  | _ => rfl

/-- Behind the bound and a member that bundles do not have. -/
theorem accepted_in_any_order_bounded :
    deserialize (Eip2718.known Eip2718.transfer Eip2718.transferSender) hexQuantity
        (.obj [("minTimestamp", .number (.pos 5)), ("note", .null), ("txs", transferJson)]) =
      .ok { txs := [⟨(), Eip2718.transferSender⟩], minTimestamp := some 5 } := by
  refine (accepted_in_any_order ?_ _).mp deserialize_bounded
  have hnote : (fields (Eip2718.known Eip2718.transfer Eip2718.transferSender)
      hexQuantity).known ("note", .null) = false := by decide
  have hfields : ∀ key : Key, ∀ json, (fields (Eip2718.known Eip2718.transfer
      Eip2718.transferSender) hexQuantity).known (key.name, json) = true := by
    intro key json
    cases key <;> rfl
  have htxs := hfields .txs transferJson
  have hbound := hfields .minTimestamp (.number (.pos 5))
  simp only [Key.name] at htxs hbound
  simp only [List.filter_cons, List.filter_nil, hnote, htxs, hbound]
  exact List.Perm.swap _ _ _

/-! ## Arrays -/

/-- The names of the fields, in the order of their declaration. -/
def names : List String :=
  ["txs", "revertingTxHashes", "droppingTxHashes", "minBlockNumber", "maxBlockNumber",
    "minTimestamp", "maxTimestamp", "minFlashblockNumber", "maxFlashblockNumber"]

/-- **An array is the object with its items under the names in order.** -/
theorem array_as_object {Tx : Type} {alloy : Eip2718 Tx} {quantity : Codec UInt64}
    {items : List Json} (h : items.length ≤ names.length)
    (b : FlashblocksBundle (Recovered Tx)) :
    deserialize alloy quantity (.arr items) = .ok b ↔
      deserialize alloy quantity (.obj (names.zip items)) = .ok b := by
  have harray : Shaped alloy quantity (.arr items) := h
  have hobject : Shaped alloy quantity (.obj (names.zip items)) := trivial
  refine accepted_congr harray hobject (fun key => List.Perm.of_eq ?_) b
  exact (Struct.members_entriesOf (fields alloy quantity).nodup_fields).symm

theorem array_as_object_transfer :
    deserialize (Eip2718.known Eip2718.transfer Eip2718.transferSender) hexQuantity
        (.arr [transferJson]) = .ok { txs := [⟨(), Eip2718.transferSender⟩] } :=
  (array_as_object (show [transferJson].length ≤ names.length by decide) _).mpr
    (deserialize_txs (Eip2718.deserialize_transfer []))

end UnichainBuilder.BundleAcceptance

import Mathlib.Algebra.Ring.Nat
import Mathlib.Data.List.Induction
import Mathlib.Data.List.ReduceOption
import Mathlib.Data.Set.Function

/-! # Byte strings of fixed width

Big-endian integers, and values whose encodings all have one width. Strings of
such encodings can be taken apart again when the counts of values are known,
or when nothing else follows them. -/
namespace UnichainBuilder.Lib.Bytes

universe u

/-- The low `width` bytes of `n`, most significant first. -/
def bigEndian : Nat → Nat → List UInt8
  | 0, _ => []
  | width + 1, n => bigEndian width (n / 256) ++ [UInt8.ofNat n]

@[simp] theorem length_bigEndian (width n : Nat) : (bigEndian width n).length = width := by
  induction width generalizing n with
  | zero => rfl
  | succ width ih => simp [bigEndian, ih]

/-- The number that a big-endian string spells. -/
def ofBigEndian (bytes : List UInt8) : Nat := bytes.foldl (fun n b => n * 256 + b.toNat) 0

theorem ofBigEndian_concat (bytes : List UInt8) (b : UInt8) :
    ofBigEndian (bytes ++ [b]) = ofBigEndian bytes * 256 + b.toNat := by
  simp [ofBigEndian]

theorem ofBigEndian_lt (bytes : List UInt8) : ofBigEndian bytes < 256 ^ bytes.length := by
  induction bytes using List.reverseRecOn with
  | nil => decide
  | append_singleton bytes b ih =>
    have hb := b.toNat_lt
    rw [ofBigEndian_concat, List.length_append, List.length_singleton, pow_succ]
    omega

theorem ofBigEndian_bigEndian {width n : Nat} (h : n < 256 ^ width) :
    ofBigEndian (bigEndian width n) = n := by
  induction width generalizing n with
  | zero =>
    rw [pow_zero, Nat.lt_one_iff] at h
    rw [h]
    rfl
  | succ width ih =>
    have hhigh : n / 256 < 256 ^ width := Nat.div_lt_of_lt_mul (by rwa [pow_succ'] at h)
    rw [bigEndian, ofBigEndian_concat, ih hhigh, UInt8.toNat_ofNat']
    exact Nat.div_add_mod' n 256

theorem bigEndian_inj {width m n : Nat} (hm : m < 256 ^ width) (hn : n < 256 ^ width)
    (h : bigEndian width m = bigEndian width n) : m = n := by
  rw [← ofBigEndian_bigEndian hm, h, ofBigEndian_bigEndian hn]

/-- Values with encodings of one width, no two of them the same. -/
class FixedBytes (α : Type u) where
  width : Nat
  toBytes : α → List UInt8
  length_toBytes : ∀ a, (toBytes a).length = width
  toBytes_injective : Function.Injective toBytes

export FixedBytes (width toBytes length_toBytes toBytes_injective)

attribute [simp] length_toBytes

instance : FixedBytes UInt64 where
  width := 8
  toBytes n := bigEndian 8 n.toNat
  length_toBytes _ := length_bigEndian _ _
  toBytes_injective m n h :=
    UInt64.toNat_inj.mp (bigEndian_inj m.toNat_lt n.toNat_lt h)

instance : FixedBytes (BitVec 160) where
  width := 20
  toBytes n := bigEndian 20 n.toNat
  length_toBytes _ := length_bigEndian _ _
  toBytes_injective m n h :=
    BitVec.eq_of_toNat_eq (bigEndian_inj m.isLt n.isLt h)

instance : FixedBytes (BitVec 256) where
  width := 32
  toBytes n := bigEndian 32 n.toNat
  length_toBytes _ := length_bigEndian _ _
  toBytes_injective m n h :=
    BitVec.eq_of_toNat_eq (bigEndian_inj m.isLt n.isLt h)

/-- A value of 32 bytes from a slice of any length. -/
def ofSlice (slice : List UInt8) : Option (BitVec 256) :=
  if slice.length = 32 then some (BitVec.ofNat 256 (ofBigEndian slice)) else none

theorem ofSlice_eq_some {slice : List UInt8} {bytes : BitVec 256} :
    ofSlice slice = some bytes ↔ slice.length = 32 ∧ ofBigEndian slice = bytes.toNat := by
  unfold ofSlice
  split
  · rename_i hlength
    have hsmall : ofBigEndian slice < 2 ^ 256 := by
      have hlt := ofBigEndian_lt slice
      rwa [hlength] at hlt
    rw [Option.some.injEq, ← BitVec.toNat_inj, BitVec.toNat_ofNat, Nat.mod_eq_of_lt hsmall,
      and_iff_right hlength]
  · rename_i hlength
    exact iff_of_false (by simp) fun h => hlength h.1

theorem ofSlice_toBytes (bytes : BitVec 256) : ofSlice (toBytes bytes) = some bytes := by
  have hvalue : ofBigEndian (toBytes bytes) = bytes.toNat := ofBigEndian_bigEndian bytes.isLt
  have hlength : (toBytes bytes).length = 32 := length_toBytes bytes
  rw [ofSlice, if_pos hlength, hvalue, BitVec.ofNat_toNat, BitVec.setWidth_eq]

section
variable {α : Type u} [FixedBytes α]

def concat (xs : List α) : List UInt8 := xs.flatMap toBytes

@[simp] theorem concat_nil : concat ([] : List α) = [] := rfl

@[simp] theorem concat_cons (x : α) (xs : List α) : concat (x :: xs) = toBytes x ++ concat xs := rfl

@[simp] theorem concat_append (xs ys : List α) : concat (xs ++ ys) = concat xs ++ concat ys :=
  List.flatMap_append

theorem length_concat (xs : List α) : (concat xs).length = xs.length * width α := by
  induction xs with
  | nil => simp
  | cons x xs ih => simp [ih, Nat.succ_mul, Nat.add_comm]

/-- Equally many values in front of two equal strings are the same values. -/
theorem concat_append_inj {xs ys : List α} {r s : List UInt8} (hcount : xs.length = ys.length)
    (h : concat xs ++ r = concat ys ++ s) : xs = ys ∧ r = s := by
  induction xs generalizing ys with
  | nil =>
    cases ys with
    | nil => exact ⟨rfl, h⟩
    | cons y ys => cases hcount
  | cons x xs ih =>
    cases ys with
    | nil => cases hcount
    | cons y ys =>
      rw [concat_cons, concat_cons, List.append_assoc, List.append_assoc] at h
      obtain ⟨hhead, htail⟩ := List.append_inj h (by simp)
      obtain ⟨hrest, hrs⟩ := ih (Nat.succ.inj hcount) htail
      exact ⟨by rw [toBytes_injective hhead, hrest], hrs⟩

/-- A string that is nothing but encodings says which. -/
theorem concat_inj {xs ys : List α} (hpos : 0 < width α) (h : concat xs = concat ys) : xs = ys := by
  have hlength := congrArg List.length h
  rw [length_concat, length_concat] at hlength
  exact (concat_append_inj (r := []) (s := []) (Nat.eq_of_mul_eq_mul_right hpos hlength)
    (by rw [h])).1

end

/-! ## Lists of hashes -/

/-- A hash without collisions on the entries of two lists tells the lists apart. -/
theorem map_inj_of_injOn {α β : Type u} {hash : α → β} {xs ys : List α}
    (hinj : Set.InjOn hash {x | x ∈ xs ∨ x ∈ ys}) (h : xs.map hash = ys.map hash) : xs = ys := by
  induction xs generalizing ys with
  | nil => exact (List.map_eq_nil_iff.mp h.symm).symm
  | cons x xs ih =>
    cases ys with
    | nil => cases h
    | cons y ys =>
      obtain ⟨hhead, htail⟩ := List.cons.inj h
      have hx : x = y := hinj (by simp) (by simp) hhead
      have hxs : xs = ys := ih (hinj.mono fun z hz => by
        rcases hz with hz | hz
        · exact .inl (List.mem_cons_of_mem _ hz)
        · exact .inr (List.mem_cons_of_mem _ hz)) htail
      rw [hx, hxs]

/-! ## Values that may be absent -/

theorem reduceOption_cons {α : Type u} (x : Option α) (xs : List (Option α)) :
    (x :: xs).reduceOption = x.toList ++ xs.reduceOption := by
  cases x with
  | none => rfl
  | some x => rfl

theorem toList_append_inj {α : Type u} {x y : Option α} {r s : List α}
    (hpresent : x.isSome = y.isSome) (h : x.toList ++ r = y.toList ++ s) : x = y ∧ r = s := by
  cases x with
  | none =>
    cases y with
    | none => exact ⟨rfl, h⟩
    | some y => cases hpresent
  | some x =>
    cases y with
    | none => cases hpresent
    | some y =>
      obtain ⟨hx, hr⟩ := List.cons.inj h
      exact ⟨congrArg some hx, hr⟩

/-- The values that are present and where they stand determine the list. -/
theorem reduceOption_inj {α : Type u} {xs ys : List (Option α)}
    (hpresent : xs.map Option.isSome = ys.map Option.isSome)
    (h : xs.reduceOption = ys.reduceOption) : xs = ys := by
  induction xs generalizing ys with
  | nil => exact (List.map_eq_nil_iff.mp hpresent.symm).symm
  | cons x xs ih =>
    cases ys with
    | nil => cases hpresent
    | cons y ys =>
      obtain ⟨hhead, htail⟩ := List.cons.inj hpresent
      rw [reduceOption_cons, reduceOption_cons] at h
      obtain ⟨hx, hxs⟩ := toList_append_inj hhead h
      rw [hx, ih htail hxs]

end UnichainBuilder.Lib.Bytes

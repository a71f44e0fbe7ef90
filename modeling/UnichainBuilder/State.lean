import UnichainBuilder.Lib.RustStd

/-! # The flashblock number

`state.rs`: a 1-indexed counter carried by every payload checkpoint. The
field is private and `new` and `next` are its only constructors, so the
value is never zero and `index` cannot underflow. -/
namespace UnichainBuilder.State
open UnichainBuilder.Lib.RustStd

structure FlashblockNumber where
  current : UInt64
  pos : 0 < current.toNat
  deriving DecidableEq

namespace FlashblockNumber

def new : FlashblockNumber := ⟨1, by decide⟩

instance : Inhabited FlashblockNumber := ⟨new⟩

/-- The number in 0-index format. -/
def index (n : FlashblockNumber) : UInt64 := n.current - 1

/-- `Self(self.0 + 1)`, a panic at `u64::MAX`. -/
def next (n : FlashblockNumber) : Except Panic FlashblockNumber :=
  match h : add n.current 1 with
  | .ok c => .ok ⟨c, by rw [add_eq_ok.mp h]; exact Nat.lt_add_left _ (by decide)⟩
  | .error p => .error p

@[simp] theorem toNat_new : new.current.toNat = 1 := rfl

theorem toNat_index (n : FlashblockNumber) : n.index.toNat = n.current.toNat - 1 := by
  have hle : (1 : UInt64) ≤ n.current := UInt64.le_iff_toNat_le.mpr n.pos
  rw [index, UInt64.toNat_sub_of_le _ _ hle]
  rfl

theorem toNat_of_next {m n : FlashblockNumber} (h : n.next = .ok m) :
    m.current.toNat = n.current.toNat + 1 := by
  unfold next at h
  split at h
  · rename_i c hc
    cases h
    exact add_eq_ok.mp hc
  · cases h

end FlashblockNumber
end UnichainBuilder.State

import Mathlib.Order.Basic

/-! # Optional bounds

A bound that may be absent, as options of configuration types are. Code tests
it with `is_some_and`; what the test means is a statement about every bound
that is present. -/
namespace UnichainBuilder.Lib.Bound

universe u
variable {α : Type u} [LE α] [LT α] [Std.IsLinearOrder α] [Std.LawfulOrderLT α]

/-- `x` does not pass the upper bound. -/
def AtMost (max : Option α) (x : α) : Prop := ∀ m ∈ max, x ≤ m

/-- `x` reaches the lower bound. -/
def AtLeast (min : Option α) (x : α) : Prop := ∀ m ∈ min, m ≤ x

variable {bound : Option α} {x y : α}

omit [LT α] [Std.LawfulOrderLT α] in
theorem AtMost.anti (h : AtMost bound y) (hle : x ≤ y) : AtMost bound x :=
  fun m hm => Std.le_trans hle (h m hm)

omit [LT α] [Std.LawfulOrderLT α] in
theorem AtLeast.mono (h : AtLeast bound x) (hle : x ≤ y) : AtLeast bound y :=
  fun m hm => Std.le_trans (h m hm) hle

/-- The upper bound is tested by asking whether it is below. -/
theorem any_below_iff [DecidableLT α] : (bound.any fun m => m < x) = true ↔ ¬ AtMost bound x := by
  cases bound with
  | none => simp [AtMost]
  | some m => simp [AtMost, Std.not_le]

/-- The lower bound is tested by asking whether it is above. -/
theorem any_above_iff [DecidableLT α] : (bound.any fun m => m > x) = true ↔ ¬ AtLeast bound x := by
  cases bound with
  | none => simp [AtLeast]
  | some m => simp [AtLeast, Std.not_le]

instance [DecidableLT α] : Decidable (AtMost bound x) :=
  decidable_of_iff _ (not_iff_comm.mp any_below_iff.symm)

instance [DecidableLT α] : Decidable (AtLeast bound x) :=
  decidable_of_iff _ (not_iff_comm.mp any_above_iff.symm)

/-- Both bounds are there and no value is within them. -/
def Crossed (min max : Option α) : Prop := ∃ m ∈ min, ∃ n ∈ max, n < m

omit [LE α] [Std.IsLinearOrder α] [Std.LawfulOrderLT α] in
theorem any_crossed_iff [DecidableLT α] {min max : Option α} :
    (min.any fun m => max.any fun n => m > n) = true ↔ Crossed min max := by
  simp [Crossed, Option.any_eq_true]

instance [DecidableLT α] {min max : Option α} : Decidable (Crossed min max) :=
  decidable_of_iff _ any_crossed_iff

theorem Crossed.not_atMost {min max : Option α} (hcross : Crossed min max)
    (hmin : AtLeast min x) : ¬ AtMost max x := by
  obtain ⟨m, hm, n, hn, hlt⟩ := hcross
  intro hmax
  exact Std.not_le.mpr hlt (Std.le_trans (hmin m hm) (hmax n hn))

end UnichainBuilder.Lib.Bound

import Mathlib.Algebra.Order.Floor.Div
import Mathlib.Algebra.BigOperators.Group.List.Basic

/-! # Counting an amount down in cells of one size

An amount `r` is used up in cells of size `c`, the first of which is cut to
absorb the remainder. Whatever is lost between two cells, the next cell ends
on the same grid, anchored where the amount runs out. -/
namespace UnichainBuilder.Lib.Countdown

/-- The size of the next cell: the remainder, or a full cell. -/
def firstCell (c r : Nat) : Nat := if r % c = 0 then c else r % c

variable {c r r' : Nat}

theorem ceilDiv_eq (hc : 0 < c) : r ⌈/⌉ c = if r % c = 0 then r / c else r / c + 1 := by
  have hdiv := Nat.div_add_mod r c
  rw [Nat.ceilDiv_eq_add_pred_div]
  split
  · rename_i h
    have hr : r + c - 1 = (c - 1) + c * (r / c) := by omega
    rw [hr, Nat.add_mul_div_left _ _ hc, Nat.div_eq_of_lt (by omega), Nat.zero_add]
  · rename_i h
    have hlt := Nat.mod_lt r hc
    have hr : r + c - 1 = (r % c - 1) + c * (r / c + 1) := by rw [Nat.mul_add]; omega
    rw [hr, Nat.add_mul_div_left _ _ hc, Nat.div_eq_of_lt (by omega), Nat.zero_add]

theorem ceilDiv_mono (h : r ≤ r') : r ⌈/⌉ c ≤ r' ⌈/⌉ c := by
  rw [Nat.ceilDiv_eq_add_pred_div, Nat.ceilDiv_eq_add_pred_div]
  exact Nat.div_le_div_right (by omega)

theorem ceilDiv_le_self (hc : 0 < c) : r ⌈/⌉ c ≤ r :=
  (ceilDiv_le_iff_le_mul hc).mpr (Nat.le_mul_of_pos_left r hc)

theorem ceilDiv_pos (hc : 0 < c) (hr : 0 < r) : 0 < r ⌈/⌉ c := by
  by_contra h
  have hle : r ⌈/⌉ c ≤ 0 := by omega
  have := (ceilDiv_le_iff_le_mul hc).mp hle
  omega

/-- Two amounts need the same number of cells when the smaller one still
reaches into the first cell of the larger. -/
theorem ceilDiv_eq_iff (hc : 0 < c) (h : r ≤ r') (hr' : 0 < r') :
    r ⌈/⌉ c = r' ⌈/⌉ c ↔ c * (r' ⌈/⌉ c - 1) < r := by
  have hpos := ceilDiv_pos hc hr'
  have hle := ceilDiv_mono (c := c) h
  have hiff := ceilDiv_le_iff_le_mul (α := ℕ) hc (b := r) (c := r' ⌈/⌉ c - 1)
  constructor
  · intro he
    by_contra hn
    have := hiff.mpr (by omega)
    omega
  · intro hlt
    by_contra hn
    have := hiff.mp (by omega)
    omega

theorem firstCell_pos (hc : 0 < c) : 0 < firstCell c r := by
  unfold firstCell; split <;> omega

theorem firstCell_le (hc : 0 < c) : firstCell c r ≤ c := by
  have := Nat.mod_lt r hc
  unfold firstCell; split <;> omega

theorem firstCell_le_self (hr : 0 < r) : firstCell c r ≤ r := by
  unfold firstCell
  split
  · rename_i h; exact Nat.le_of_dvd hr (Nat.dvd_of_mod_eq_zero h)
  · exact Nat.mod_le r c

theorem firstCell_mul (c j : Nat) : firstCell c (c * j) = c := by
  simp [firstCell]

/-- The rest after the first cell is a whole number of cells, one fewer. -/
theorem sub_firstCell (hc : 0 < c) (hr : 0 < r) :
    r - firstCell c r = c * (r ⌈/⌉ c - 1) := by
  have hdiv := Nat.div_add_mod r c
  rw [ceilDiv_eq hc]
  unfold firstCell
  split
  · rename_i h
    have hq : 0 < r / c := Nat.div_pos (Nat.le_of_dvd hr (Nat.dvd_of_mod_eq_zero h)) hc
    rw [Nat.mul_sub, Nat.mul_one]; omega
  · rw [Nat.add_sub_cancel]; omega

theorem ceilDiv_lt (hc : 0 < c) (hr : 0 < r) (h : r' ≤ r - firstCell c r) :
    r' ⌈/⌉ c < r ⌈/⌉ c := by
  have hpos := ceilDiv_pos hc hr
  rw [sub_firstCell hc hr] at h
  have := (ceilDiv_le_iff_le_mul hc).mpr h
  omega

/-! ## Counting down cell after cell -/

/-- What is left at each cell when `overruns` are lost between the cells. -/
def countdown (c r : Nat) : List Nat → List Nat
  | [] => [r]
  | overrun :: overruns => r :: countdown c (r - (firstCell c r + overrun)) overruns

theorem le_of_mem_countdown {x : Nat} {overruns : List Nat} (h : x ∈ countdown c r overruns) :
    x ≤ r := by
  induction overruns generalizing r with
  | nil => exact (List.mem_singleton.mp h).le
  | cons o os ih =>
    rcases List.mem_cons.mp h with rfl | hm
    · exact Nat.le_refl x
    · exact (ih hm).trans (Nat.sub_le _ _)

/-- As long as something is left, every later cell is one of fewer. -/
theorem pairwise_countdown (hc : 0 < c) (r : Nat) (overruns : List Nat) :
    (countdown c r overruns).Pairwise fun (a b : Nat) => 0 < a → b ⌈/⌉ c < a ⌈/⌉ c := by
  induction overruns generalizing r with
  | nil => exact List.pairwise_singleton _ _
  | cons o os ih =>
    refine List.pairwise_cons.mpr ⟨fun x hx hr => ceilDiv_lt hc hr ?_, ih _⟩
    exact (le_of_mem_countdown hx).trans (by omega)

/-- The cells of a countdown that begin with something left. -/
def running (c r : Nat) (overruns : List Nat) : List Nat :=
  (countdown c r overruns).filter (0 < ·)

theorem running_zero (c : Nat) (overruns : List Nat) : running c 0 overruns = [] := by
  refine List.filter_eq_nil_iff.mpr fun x hx => ?_
  have := le_of_mem_countdown hx
  simp; omega

theorem running_cons (hr : 0 < r) (overrun : Nat) (overruns : List Nat) :
    running c r (overrun :: overruns) =
      r :: running c (r - (firstCell c r + overrun)) overruns := by
  rw [running, countdown, List.filter_cons_of_pos (by simpa using hr), running]

theorem length_running_le (hc : 0 < c) (r : Nat) (overruns : List Nat) :
    (running c r overruns).length ≤ r ⌈/⌉ c := by
  induction overruns generalizing r with
  | nil =>
    rcases Nat.eq_zero_or_pos r with rfl | hr
    · simp [running_zero]
    · exact (List.length_filter_le _ _).trans (ceilDiv_pos hc hr)
  | cons o os ih =>
    rcases Nat.eq_zero_or_pos r with rfl | hr
    · simp [running_zero]
    · have hlt := ceilDiv_lt hc hr
        (show r - (firstCell c r + o) ≤ r - firstCell c r by omega)
      have := ih (r - (firstCell c r + o))
      rw [running_cons hr, List.length_cons]
      omega

/-! ## Without overruns -/

theorem firstCell_running_mul (hc : 0 < c) {x j k : Nat}
    (h : x ∈ running c (c * j) (List.replicate k 0)) : firstCell c x = c := by
  induction k generalizing j with
  | zero =>
    obtain rfl := List.mem_singleton.mp (List.mem_of_mem_filter h)
    exact firstCell_mul c j
  | succ k ih =>
    rcases Nat.eq_zero_or_pos (c * j) with hz | hj
    · rw [hz, running_zero] at h; cases h
    · rw [List.replicate_succ, running_cons hj, Nat.add_zero, sub_firstCell hc hj] at h
      rcases List.mem_cons.mp h with rfl | hm
      · exact firstCell_mul c j
      · exact ih hm

/-- Only the first cell is cut. -/
theorem firstCell_tail_running (hc : 0 < c) {x k : Nat}
    (h : x ∈ (running c r (List.replicate k 0)).tail) : firstCell c x = c := by
  rcases Nat.eq_zero_or_pos r with rfl | hr
  · rw [running_zero] at h; cases h
  · cases k with
    | zero =>
      rw [List.replicate_zero, running, countdown, List.filter_cons_of_pos (by simpa using hr)] at h
      cases h
    | succ k =>
      rw [List.replicate_succ, running_cons hr, Nat.add_zero, sub_firstCell hc hr] at h
      exact firstCell_running_mul hc h

theorem ceilDiv_sub_firstCell (hc : 0 < c) (hr : 0 < r) :
    (r - firstCell c r) ⌈/⌉ c = r ⌈/⌉ c - 1 := by
  rw [sub_firstCell hc hr, ← smul_eq_mul, smul_ceilDiv hc]

/-- Enough cells use the amount up, in as many cells as announced. -/
theorem running_complete (hc : 0 < c) {k : Nat} (h : r ⌈/⌉ c ≤ k + 1) :
    (running c r (List.replicate k 0)).length = r ⌈/⌉ c ∧
      ((running c r (List.replicate k 0)).map (firstCell c)).sum = r := by
  induction k generalizing r with
  | zero =>
    rcases Nat.eq_zero_or_pos r with rfl | hr
    · simp [running_zero]
    · have hpos := ceilDiv_pos hc hr
      have hrest := sub_firstCell hc hr
      have hle := firstCell_le_self (c := c) hr
      rw [show r ⌈/⌉ c - 1 = 0 by omega, Nat.mul_zero] at hrest
      rw [List.replicate_zero, running, countdown, List.filter_cons_of_pos (by simpa using hr)]
      simp only [List.filter_nil, List.map_cons, List.map_nil, List.sum_cons, List.sum_nil,
        List.length_singleton]
      omega
  | succ k ih =>
    rcases Nat.eq_zero_or_pos r with rfl | hr
    · simp [running_zero]
    · have hpos := ceilDiv_pos hc hr
      have hle := firstCell_le_self (c := c) hr
      have hcells := ceilDiv_sub_firstCell hc hr
      obtain ⟨hlen, hsum⟩ := ih (r := r - firstCell c r) (by omega)
      rw [List.replicate_succ, running_cons hr, Nat.add_zero, List.map_cons, List.sum_cons,
        List.length_cons, hlen, hsum]
      omega

end UnichainBuilder.Lib.Countdown

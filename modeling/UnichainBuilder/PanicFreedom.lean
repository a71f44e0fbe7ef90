import UnichainBuilder.Stop

/-! # Which intervals the arithmetic survives

The interval comes from the command line as any duration. `FlashblockLimits`
and `BreakAfterMaxFlashblocks` cut it to whole milliseconds, narrow it to a
`u64` and divide by it. -/
namespace UnichainBuilder.PanicFreedom
open UnichainBuilder.Lib.RustStd UnichainBuilder.Lib.Countdown
open UnichainBuilder.State UnichainBuilder.Block UnichainBuilder.Checkpoints
open UnichainBuilder.Limits UnichainBuilder.Stop
open UnichainBuilder.Publish (ControlFlow)

/-- A divisor of whole milliseconds that fits a `u64`. -/
def Divides (interval : Duration) : Prop := 0 < interval.asMillis ∧ interval.asMillis ≤ u64Max

instance (interval : Duration) : Decidable (Divides interval) :=
  inferInstanceAs (Decidable (_ ∧ _))

variable {Tx : Type} {interval deadline elapsed : Duration} {block : BlockContext}
  {gasLimit : UInt64} {payload : Payload Tx}

/-- A ceiling quotient of a `u64` is a `u64`. -/
theorem exists_target (hinterval : Divides interval) {ms : Nat} (hms : ms ≤ u64Max) :
    ∃ target : UInt64, target.toNat = ms ⌈/⌉ interval.asMillis :=
  exists_toNat_of_le ((ceilDiv_le_self hinterval.1).trans hms)

theorem create_returns_iff :
    (∃ limits, FlashblockLimits.create ⟨interval⟩ payload block elapsed
        ⟨gasLimit, some deadline⟩ = .ok limits) ↔
      Divides interval ∧ FlashblockLimits.remainingMs block elapsed deadline ≤ u64Max := by
  constructor
  · intro ⟨limits, h⟩
    obtain ⟨target, first, hpartition, _⟩ := FlashblockLimits.create_eq_ok.mp h
    obtain ⟨_, hdeadline, hremaining, hmax, hpos, _⟩ :=
      FlashblockLimits.partition_eq_ok.mp hpartition
    cases hdeadline
    exact ⟨⟨hpos, hmax⟩, hremaining⟩
  · intro ⟨hinterval, hremaining⟩
    obtain ⟨target, htarget⟩ := exists_target hinterval hremaining
    have hpartition : FlashblockLimits.partition ⟨interval⟩ block elapsed
        ⟨gasLimit, some deadline⟩ = .ok (target, _) :=
      FlashblockLimits.partition_eq_ok.mpr
        ⟨deadline, rfl, hremaining, hinterval.2, hinterval.1, htarget, rfl⟩
    exact ⟨_, FlashblockLimits.create_eq_ok.mpr ⟨target, _, hpartition, rfl⟩⟩

theorem step_returns_iff :
    (∃ flow, BreakAfterMaxFlashblocks.step ⟨interval⟩ payload ⟨gasLimit, some deadline⟩ =
        .ok flow) ↔
      Divides interval ∧ deadline.asMillis ≤ u64Max := by
  constructor
  · intro ⟨flow, h⟩
    obtain ⟨target, htarget, _⟩ := BreakAfterMaxFlashblocks.step_eq_ok.mp h
    obtain ⟨_, hdeadline, hms, hmax, hpos, _⟩ :=
      BreakAfterMaxFlashblocks.targetFlashblocks_eq_ok.mp htarget
    cases hdeadline
    exact ⟨⟨hpos, hmax⟩, hms⟩
  · intro ⟨hinterval, hms⟩
    obtain ⟨target, htarget⟩ := exists_target hinterval hms
    have hok : BreakAfterMaxFlashblocks.targetFlashblocks ⟨interval⟩
        ⟨gasLimit, some deadline⟩ = .ok target :=
      BreakAfterMaxFlashblocks.targetFlashblocks_eq_ok.mpr
        ⟨deadline, rfl, hms, hinterval.2, hinterval.1, htarget⟩
    exact ⟨_, BreakAfterMaxFlashblocks.step_eq_ok.mpr ⟨target, hok, rfl⟩⟩

/-- **When the limits and the step return.** With an enclosing deadline, both
return if and only if the interval has a whole millisecond and its
milliseconds, those left to partition and those of the deadline fit a `u64`. -/
theorem both_return_iff {scopeGasLimit : UInt64} {scopeDeadline : Duration} :
    ((∃ limits, FlashblockLimits.create ⟨interval⟩ payload block elapsed
        ⟨gasLimit, some deadline⟩ = .ok limits) ∧
      ∃ flow, BreakAfterMaxFlashblocks.step ⟨interval⟩ payload
        ⟨scopeGasLimit, some scopeDeadline⟩ = .ok flow) ↔
      Divides interval ∧ FlashblockLimits.remainingMs block elapsed deadline ≤ u64Max ∧
        scopeDeadline.asMillis ≤ u64Max := by
  rw [create_returns_iff, step_returns_iff]
  exact (and_and_left ..).symm

/-- Within the deadlines of any block only the interval matters. -/
theorem both_return_of_deadline (hdeadline : deadline.asMillis ≤ u64Max) :
    ((∃ limits, FlashblockLimits.create ⟨interval⟩ payload block elapsed
        ⟨gasLimit, some deadline⟩ = .ok limits) ∧
      ∃ flow, BreakAfterMaxFlashblocks.step ⟨interval⟩ payload ⟨gasLimit, some deadline⟩ =
        .ok flow) ↔ Divides interval := by
  rw [create_returns_iff, step_returns_iff, and_iff_left hdeadline,
    and_iff_left ((FlashblockLimits.remainingMs_le ..).trans hdeadline), and_self]

/-- `--flashblocks.interval 0s` divides by zero in both places. -/
theorem zero_interval_panics :
    let limits : Limits := ⟨30000000, some (Duration.fromMillis 1000)⟩
    FlashblockLimits.create ⟨⟨0⟩⟩ (.new : Payload Bytes)
        { (default : BlockContext) with timestamp := 1 } ⟨0⟩ limits = .error .remByZero ∧
      BreakAfterMaxFlashblocks.step ⟨⟨0⟩⟩ (.new : Payload Bytes) limits = .error .remByZero :=
  ⟨rfl, rfl⟩

end UnichainBuilder.PanicFreedom

import UnichainBuilder.Limits
import UnichainBuilder.Publish

/-! # Leaving the flashblocks loop

`stop.rs`: the step behind the publisher that ends the loop once the number
of flashblocks for the payload deadline is reached. -/
namespace UnichainBuilder.Stop
open UnichainBuilder.Lib.RustStd UnichainBuilder.Lib.Countdown
open UnichainBuilder.State UnichainBuilder.Block UnichainBuilder.Checkpoints
open UnichainBuilder.Limits
open UnichainBuilder.Publish (ControlFlow)

structure BreakAfterMaxFlashblocks where
  flashblockInterval : Duration
  deriving DecidableEq, Repr, Inhabited

namespace BreakAfterMaxFlashblocks

def targetFlashblocks (self : BreakAfterMaxFlashblocks) (limits : Limits) :
    Except Panic UInt64 := do
  let payloadDeadline ← expect limits.deadline
    "Flashblock limit require its enclosing scope to have a deadline"
  let payloadDeadlineMs ← expect (u64TryFrom payloadDeadline.asMillis)
    "payload_deadline should never exceed u64::MAX milliseconds"
  let flashblockIntervalMs ← expect (u64TryFrom self.flashblockInterval.asMillis)
    "flashblock_interval should never exceed u64::MAX milliseconds"
  let offsetMs ← rem payloadDeadlineMs flashblockIntervalMs
  if offsetMs = 0 then
    div payloadDeadlineMs flashblockIntervalMs
  else
    let quotient ← div payloadDeadlineMs flashblockIntervalMs
    add quotient 1

def step {Tx : Type} (self : BreakAfterMaxFlashblocks) (payload : Payload Tx) (limits : Limits) :
    Except Panic (ControlFlow (Payload Tx)) := do
  let targetFlashblocks ← self.targetFlashblocks limits
  if payload.context.current ≤ targetFlashblocks then return .ok payload else return .brk payload

theorem targetFlashblocks_eq_ok {self : BreakAfterMaxFlashblocks} {limits : Limits}
    {target : UInt64} :
    self.targetFlashblocks limits = .ok target ↔
      ∃ payloadDeadline, limits.deadline = some payloadDeadline ∧
        payloadDeadline.asMillis ≤ u64Max ∧ self.flashblockInterval.asMillis ≤ u64Max ∧
        0 < self.flashblockInterval.asMillis ∧
        target.toNat = payloadDeadline.asMillis ⌈/⌉ self.flashblockInterval.asMillis := by
  simp only [targetFlashblocks, bind_eq_ok, expect_eq_ok, u64TryFrom_eq_some]
  constructor
  · rintro ⟨deadline, hd, deadlineMs, hdm, intervalMs, him, offset, hrem, h⟩
    refine ⟨deadline, hd, hdm ▸ toNat_le_u64Max _, him ▸ toNat_le_u64Max _,
      him ▸ (rem_eq_ok.mp hrem).1, ?_⟩
    rw [← hdm, ← him, target_toNat hrem]
    simpa only [apply_ite (· = Except.ok target), bind_eq_ok] using h
  · rintro ⟨deadline, hd, hdm, him, hpos, ht⟩
    obtain ⟨deadlineMs, hdm⟩ := exists_toNat_of_le hdm
    obtain ⟨intervalMs, him⟩ := exists_toNat_of_le him
    rw [← hdm, ← him] at ht
    rw [← him] at hpos
    have hrem : rem deadlineMs intervalMs = .ok (deadlineMs % intervalMs) :=
      rem_eq_ok.mpr ⟨hpos, UInt64.toNat_mod _ _⟩
    refine ⟨deadline, hd, deadlineMs, hdm, intervalMs, him, _, hrem, ?_⟩
    simpa only [apply_ite (· = Except.ok target), bind_eq_ok] using (target_toNat hrem).mp ht

theorem step_eq_ok {Tx : Type} {self : BreakAfterMaxFlashblocks} {payload : Payload Tx}
    {limits : Limits} {flow : ControlFlow (Payload Tx)} :
    self.step payload limits = .ok flow ↔
      ∃ target, self.targetFlashblocks limits = .ok target ∧
        flow = if payload.context.current ≤ target then .ok payload else .brk payload := by
  simp only [step, bind_eq_ok]
  refine exists_congr fun target => and_congr_right fun _ => ?_
  split <;> exact pure_eq_ok.trans eq_comm

end BreakAfterMaxFlashblocks
end UnichainBuilder.Stop

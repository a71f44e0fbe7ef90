import UnichainBuilder.Lib.Countdown
import UnichainBuilder.Checkpoints

/-! # Limits of a single flashblock

`limits.rs`: how long the next flashblock may take and how much gas the
payload may have used by its end. -/
namespace UnichainBuilder.Limits
open UnichainBuilder.Lib.RustStd UnichainBuilder.Lib.Countdown
open UnichainBuilder.State UnichainBuilder.Block UnichainBuilder.Checkpoints

/-- The number of flashblocks that fit and the length of the first. -/
def partitionTimeIntoFlashblocks (blockTime remainingTime flashblockInterval : Duration) :
    Except Panic (UInt64 × Duration) := do
  let remainingTime := min remainingTime blockTime
  let remainingMs ← expect (u64TryFrom remainingTime.asMillis)
    "remaining_time should never exceed u64::MAX milliseconds"
  let flashblockIntervalMs ← expect (u64TryFrom flashblockInterval.asMillis)
    "flashblock_interval should never exceed u64::MAX milliseconds"
  let firstOffsetMs ← rem remainingMs flashblockIntervalMs
  if firstOffsetMs = 0 then
    let targetFlashblocks ← div remainingMs flashblockIntervalMs
    return (targetFlashblocks, flashblockInterval)
  else
    let quotient ← div remainingMs flashblockIntervalMs
    let targetFlashblocks ← add quotient 1
    return (targetFlashblocks, Duration.fromMillis firstOffsetMs)

structure FlashblockLimits where
  interval : Duration
  deriving DecidableEq, Repr, Inhabited

namespace FlashblockLimits

/-- The time between the parent block and the block under construction. -/
def blockTime (block : BlockContext) : Duration :=
  Duration.fromSecs (saturatingSub block.timestamp block.parent.timestamp)

/-- The part of `create` that deals with time; `elapsed` is what
`building_since().elapsed()` reads. -/
def partition (self : FlashblockLimits) (block : BlockContext) (elapsed : Duration)
    (enclosing : Limits) : Except Panic (UInt64 × Duration) := do
  let payloadDeadline ← expect enclosing.deadline
    "FlashblockLimits requires its enclosing scope to have a deadline"
  let remainingTime := payloadDeadline.saturatingSub elapsed
  partitionTimeIntoFlashblocks (blockTime block) remainingTime self.interval

/-- The cumulative budget at the end of flashblock `flashblockNumber`. -/
def gasLimit (enclosing : Limits) (targetFlashblocks : UInt64)
    (flashblockNumber : FlashblockNumber) : UInt64 :=
  saturatingMul ((checkedDiv enclosing.gasLimit targetFlashblocks).getD enclosing.gasLimit)
    flashblockNumber.current

def create {Tx : Type} (self : FlashblockLimits) (payload : Payload Tx) (block : BlockContext)
    (elapsed : Duration) (enclosing : Limits) : Except Panic Limits := do
  let flashblockNumber := payload.context
  let (targetFlashblocks, deadline) ← self.partition block elapsed enclosing
  return { enclosing with
    deadline := some deadline
    gasLimit := gasLimit enclosing targetFlashblocks flashblockNumber }

end FlashblockLimits

/-! ## What a partition returns -/

/-- The length of the first flashblock when `remainingMs` are left. -/
def firstDeadline (interval : Duration) (remainingMs : Nat) : Duration :=
  if remainingMs % interval.asMillis = 0 then interval
  else ⟨remainingMs % interval.asMillis * 1000000⟩

theorem offset_eq_zero_iff {total interval offset : UInt64} (h : rem total interval = .ok offset) :
    offset = 0 ↔ total.toNat % interval.toNat = 0 := by
  rw [← (rem_eq_ok.mp h).2, ← UInt64.toNat_inj]; rfl

/-- With an interval of whole milliseconds the first window is the first cell
of the remaining time. -/
theorem nanos_firstDeadline {interval : Duration}
    (hwhole : interval.nanos = interval.asMillis * 1000000) (remainingMs : Nat) :
    (firstDeadline interval remainingMs).nanos =
      firstCell interval.asMillis remainingMs * 1000000 := by
  unfold firstDeadline firstCell
  split
  · exact hwhole
  · rfl

/-- The ceiling rule, as `partition_time_into_flashblocks` and
`BreakAfterMaxFlashblocks` both write it out. -/
theorem target_toNat {total interval offset target : UInt64}
    (hoffset : rem total interval = .ok offset) :
    target.toNat = total.toNat ⌈/⌉ interval.toNat ↔
      if offset = 0 then div total interval = .ok target
      else ∃ quotient, div total interval = .ok quotient ∧ add quotient 1 = .ok target := by
  have hzero := offset_eq_zero_iff hoffset
  obtain ⟨hpos, _⟩ := rem_eq_ok.mp hoffset
  rw [ceilDiv_eq hpos]
  by_cases h : offset = 0
  · rw [if_pos h, if_pos (hzero.mp h), div_eq_ok]
    simp [hpos]
  · rw [if_neg h, if_neg (fun hz => h (hzero.mpr hz))]
    simp only [div_eq_ok, add_eq_ok, hpos, true_and]
    constructor
    · intro ht
      exact ⟨total / interval, UInt64.toNat_div _ _, by rw [ht, UInt64.toNat_div]; rfl⟩
    · rintro ⟨quotient, hq, ht⟩
      rw [ht, hq]; rfl

/-- The deadline that goes with an offset is the length of the first window. -/
theorem deadline_eq_firstDeadline {total intervalMs offset : UInt64} {interval : Duration}
    (hms : intervalMs.toNat = interval.asMillis) (hoffset : rem total intervalMs = .ok offset) :
    (if offset = 0 then interval else Duration.fromMillis offset) =
      firstDeadline interval total.toNat := by
  have hzero := offset_eq_zero_iff hoffset
  rw [firstDeadline, ← hms, Duration.fromMillis, (rem_eq_ok.mp hoffset).2]
  by_cases h : offset = 0
  · rw [if_pos h, if_pos (hzero.mp h)]
  · rw [if_neg h, if_neg fun h0 => h (hzero.mpr h0)]

/-- Both branches of the partition, once the offset is known. -/
theorem branches_eq_ok {total intervalMs offset target : UInt64} {interval deadline : Duration}
    (hms : intervalMs.toNat = interval.asMillis) (hoffset : rem total intervalMs = .ok offset) :
    (if offset = 0 then do
        let targetFlashblocks ← div total intervalMs
        return (targetFlashblocks, interval)
      else do
        let quotient ← div total intervalMs
        let targetFlashblocks ← add quotient 1
        return (targetFlashblocks, Duration.fromMillis offset)) =
        (.ok (target, deadline) : Except Panic (UInt64 × Duration)) ↔
      target.toNat = total.toNat ⌈/⌉ interval.asMillis ∧
        deadline = firstDeadline interval total.toNat := by
  rw [← hms, target_toNat hoffset, ← deadline_eq_firstDeadline hms hoffset]
  by_cases h : offset = 0
  · simp only [if_pos h, bind_eq_ok, pure_eq_ok, Prod.mk.injEq]
    constructor
    · intro ⟨_, hdiv, htarget, hdeadline⟩
      exact ⟨htarget ▸ hdiv, hdeadline.symm⟩
    · intro ⟨hdiv, hdeadline⟩
      exact ⟨target, hdiv, rfl, hdeadline.symm⟩
  · simp only [if_neg h, bind_eq_ok, pure_eq_ok, Prod.mk.injEq]
    constructor
    · intro ⟨quotient, hdiv, _, hadd, htarget, hdeadline⟩
      exact ⟨⟨quotient, hdiv, htarget ▸ hadd⟩, hdeadline.symm⟩
    · intro ⟨⟨quotient, hdiv, hadd⟩, hdeadline⟩
      exact ⟨quotient, hdiv, target, hadd, rfl, hdeadline.symm⟩

/-- A partition returns unless a millisecond conversion fails or the interval
has no whole millisecond; it announces the ceiling quotient. -/
theorem partitionTime_eq_ok {blockTime remainingTime interval deadline : Duration}
    {target : UInt64} :
    partitionTimeIntoFlashblocks blockTime remainingTime interval = .ok (target, deadline) ↔
      (min remainingTime blockTime).asMillis ≤ u64Max ∧ interval.asMillis ≤ u64Max ∧
      0 < interval.asMillis ∧
      target.toNat = (min remainingTime blockTime).asMillis ⌈/⌉ interval.asMillis ∧
      deadline = firstDeadline interval (min remainingTime blockTime).asMillis := by
  simp only [partitionTimeIntoFlashblocks]
  rw [bind_eq_ok]
  simp only [expect_eq_ok, u64TryFrom_eq_some]
  constructor
  · rintro ⟨remainingMs, hr, h⟩
    obtain ⟨intervalMs, hi, h⟩ := bind_eq_ok.mp h
    obtain ⟨offset, hoffset, h⟩ := bind_eq_ok.mp h
    rw [expect_eq_ok, u64TryFrom_eq_some] at hi
    rw [← hr]
    exact ⟨toNat_le_u64Max _, hi ▸ toNat_le_u64Max _, hi ▸ (rem_eq_ok.mp hoffset).1,
      (branches_eq_ok hi hoffset).mp h⟩
  · rintro ⟨hr, hi, hpos, h⟩
    obtain ⟨remainingMs, hr⟩ := exists_toNat_of_le hr
    obtain ⟨intervalMs, hi⟩ := exists_toNat_of_le hi
    have hoffset : rem remainingMs intervalMs = .ok (remainingMs % intervalMs) :=
      rem_eq_ok.mpr ⟨hi ▸ hpos, UInt64.toNat_mod _ _⟩
    rw [← hr] at h
    refine ⟨remainingMs, hr, bind_eq_ok.mpr ⟨intervalMs, ?_, bind_eq_ok.mpr ⟨_, hoffset, ?_⟩⟩⟩
    · rw [expect_eq_ok, u64TryFrom_eq_some, hi]
    · exact (branches_eq_ok hi hoffset).mpr h

theorem firstDeadline_le {interval : Duration} (hpos : 0 < interval.asMillis) (remainingMs : Nat) :
    firstDeadline interval remainingMs ≤ interval := by
  unfold firstDeadline
  split
  · exact le_refl _
  · have hlt := Nat.mod_lt remainingMs hpos
    have hle : interval.asMillis * 1000000 ≤ interval.nanos := Nat.div_mul_le_self _ _
    exact (Nat.mul_le_mul_right _ hlt.le).trans hle

/-- **What the windows of a partition come to.** The first is no longer than
the interval; there is none exactly when no whole millisecond remains; and the
first with all the others after it takes the whole milliseconds that remain,
and once for every full window what the interval has below a millisecond. -/
theorem partition_covers {blockTime remainingTime interval first : Duration} {target : UInt64}
    (h : partitionTimeIntoFlashblocks blockTime remainingTime interval = .ok (target, first)) :
    let remaining := (min remainingTime blockTime).asMillis
    first ≤ interval ∧ (target = 0 ↔ remaining = 0) ∧
      (target ≠ 0 → first.nanos + (target.toNat - 1) * interval.nanos =
        remaining * 1000000 + remaining / interval.asMillis * (interval.nanos % 1000000)) := by
  intro remaining
  obtain ⟨-, -, hpos, htarget, hfirst⟩ := partitionTime_eq_ok.mp h
  change target.toNat = remaining ⌈/⌉ interval.asMillis at htarget
  change first = firstDeadline interval remaining at hfirst
  clear_value remaining
  subst hfirst
  have hzero : target = 0 ↔ target.toNat = 0 := by
    rw [← UInt64.toNat_inj]
    rfl
  refine ⟨firstDeadline_le hpos _, ?_, fun hne => ?_⟩
  · rw [hzero, htarget]
    refine ⟨fun hnone => ?_, fun hnone => ?_⟩
    · by_contra hsome
      have := ceilDiv_pos hpos (Nat.pos_of_ne_zero hsome)
      omega
    · rw [hnone, ceilDiv_eq hpos, if_pos (Nat.zero_mod _), Nat.zero_div]
  · have hsome : target.toNat ≠ 0 := fun h0 => hne (hzero.mpr h0)
    rw [ceilDiv_eq hpos] at htarget
    rw [htarget] at hsome ⊢
    have hnanos : interval.nanos = interval.asMillis * 1000000 + interval.nanos % 1000000 :=
      (Nat.div_add_mod' _ _).symm
    have hwindows := Nat.div_add_mod' remaining interval.asMillis
    rw [firstDeadline]
    by_cases hperfect : remaining % interval.asMillis = 0
    · rw [if_pos hperfect] at hsome ⊢
      rw [if_pos hperfect]
      calc interval.nanos + (remaining / interval.asMillis - 1) * interval.nanos
          = remaining / interval.asMillis * interval.nanos := by
            rw [Nat.add_comm, ← Nat.succ_mul, Nat.succ_eq_add_one,
              Nat.sub_add_cancel (Nat.pos_of_ne_zero hsome)]
        _ = remaining / interval.asMillis * interval.asMillis * 1000000 +
              remaining / interval.asMillis * (interval.nanos % 1000000) := by
            rw [Nat.mul_assoc, ← Nat.mul_add, ← hnanos]
        _ = remaining * 1000000 + remaining / interval.asMillis * (interval.nanos % 1000000) := by
            rw [Nat.div_mul_cancel (Nat.dvd_of_mod_eq_zero hperfect)]
    · rw [if_neg hperfect, if_neg hperfect, Nat.add_sub_cancel]
      calc remaining % interval.asMillis * 1000000 +
            remaining / interval.asMillis * interval.nanos
          = remaining % interval.asMillis * 1000000 +
              (remaining / interval.asMillis * interval.asMillis * 1000000 +
                remaining / interval.asMillis * (interval.nanos % 1000000)) := by
            rw [Nat.mul_assoc, ← Nat.mul_add, ← hnanos]
        _ = (remaining / interval.asMillis * interval.asMillis + remaining % interval.asMillis) *
              1000000 + remaining / interval.asMillis * (interval.nanos % 1000000) := by
            rw [Nat.add_mul]
            omega
        _ = remaining * 1000000 + remaining / interval.asMillis * (interval.nanos % 1000000) := by
            rw [hwindows]

/-- With 75 ms of leeway: seven full windows behind one of 175 ms. -/
theorem partition_covers_leeway :
    let first : Duration := .fromMillis 175
    first ≤ .fromMillis 250 ∧ ((8 : UInt64) = 0 ↔ 1925 = 0) ∧
      ((8 : UInt64) ≠ 0 → first.nanos + ((8 : UInt64).toNat - 1) * 250000000 =
        1925 * 1000000 + 1925 / 250 * (250000000 % 1000000)) :=
  partition_covers (show partitionTimeIntoFlashblocks (.fromSecs 2) (.fromMillis 1925)
    (.fromMillis 250) = .ok (8, .fromMillis 175) from rfl)

namespace FlashblockLimits

/-- The whole milliseconds `create` has left to partition. -/
def remainingMs (block : BlockContext) (elapsed payloadDeadline : Duration) : Nat :=
  (min (payloadDeadline.saturatingSub elapsed) (blockTime block)).asMillis

theorem remainingMs_le (block : BlockContext) (elapsed payloadDeadline : Duration) :
    remainingMs block elapsed payloadDeadline ≤ payloadDeadline.asMillis :=
  Duration.asMillis_mono ((min_le_left _ _).trans (Nat.sub_le _ _))

theorem remainingMs_anti (block : BlockContext) {elapsed elapsed' : Duration}
    (h : elapsed ≤ elapsed') (payloadDeadline : Duration) :
    remainingMs block elapsed' payloadDeadline ≤ remainingMs block elapsed payloadDeadline :=
  Duration.asMillis_mono (min_le_min_right _ (Nat.sub_le_sub_left h _))

theorem partition_eq_ok {self : FlashblockLimits} {block : BlockContext}
    {elapsed deadline : Duration} {enclosing : Limits} {target : UInt64} :
    self.partition block elapsed enclosing = .ok (target, deadline) ↔
      ∃ payloadDeadline, enclosing.deadline = some payloadDeadline ∧
        remainingMs block elapsed payloadDeadline ≤ u64Max ∧ self.interval.asMillis ≤ u64Max ∧
        0 < self.interval.asMillis ∧
        target.toNat = remainingMs block elapsed payloadDeadline ⌈/⌉ self.interval.asMillis ∧
        deadline = firstDeadline self.interval (remainingMs block elapsed payloadDeadline) := by
  simp only [partition, bind_eq_ok, expect_eq_ok, partitionTime_eq_ok, remainingMs]

theorem create_eq_ok {Tx : Type} {self : FlashblockLimits} {payload : Payload Tx}
    {block : BlockContext} {elapsed : Duration} {enclosing limits : Limits} :
    self.create payload block elapsed enclosing = .ok limits ↔
      ∃ target deadline, self.partition block elapsed enclosing = .ok (target, deadline) ∧
        limits = { gasLimit := gasLimit enclosing target payload.context
                   deadline := some deadline } := by
  simp only [create, bind_eq_ok, Prod.exists, pure_eq_ok]
  exact exists_congr fun _ => exists_congr fun _ => and_congr_right fun _ => eq_comm

theorem toNat_gasLimit (enclosing : Limits) (target : UInt64) (n : FlashblockNumber) :
    (gasLimit enclosing target n).toNat =
      min ((if target.toNat = 0 then enclosing.gasLimit.toNat
        else enclosing.gasLimit.toNat / target.toNat) * n.current.toNat) u64Max := by
  have hzero : target = 0 ↔ target.toNat = 0 := by rw [← UInt64.toNat_inj]; rfl
  rw [gasLimit, toNat_saturatingMul, checkedDiv]
  by_cases h : target = 0
  · rw [if_pos h, if_pos (hzero.mp h)]; rfl
  · rw [if_neg h, if_neg (fun h0 => h (hzero.mpr h0)), ← UInt64.toNat_div]; rfl

end FlashblockLimits
end UnichainBuilder.Limits

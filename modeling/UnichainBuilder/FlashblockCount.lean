import UnichainBuilder.PublishedLog
import UnichainBuilder.FlashblocksLoop

/-! # How many flashblocks a job publishes

The publisher increments a counter on success and `BreakAfterMaxFlashblocks`
compares it with the ceiling quotient of deadline and interval. Failed calls
cost iterations but are not counted. -/
namespace UnichainBuilder.FlashblockCount
open UnichainBuilder.Lib.RustStd UnichainBuilder.Lib.Runs UnichainBuilder.Block
open UnichainBuilder.Checkpoints UnichainBuilder.Publish UnichainBuilder.Job
open UnichainBuilder.Stop UnichainBuilder.PublishedLog UnichainBuilder.FlashblocksLoop

/-- The number of flashblocks for the whole payload deadline. -/
def targetCount (cfg : LoopConfig) : Nat := cfg.deadline.asMillis ⌈/⌉ cfg.interval.asMillis

variable {Tx : Type} [Encodable2718 Tx] {cfg : LoopConfig} {s t : LoopState Tx}

theorem target_toNat_eq {target : UInt64}
    (h : BreakAfterMaxFlashblocks.targetFlashblocks ⟨cfg.interval⟩ cfg.limits = .ok target) :
    target.toNat = targetCount cfg := by
  obtain ⟨deadline, hd, _, _, _, ht⟩ := BreakAfterMaxFlashblocks.targetFlashblocks_eq_ok.mp h
  cases hd
  exact ht

/-- The loop goes on only while one more flashblock is within the target, and
stops by count only when the target is reached. -/
structure Counted (cfg : LoopConfig) (s : LoopState Tx) : Prop where
  refines : ∃ log, Refines s.job log
  bound : s.job.accepted.length ≤ max 1 (targetCount cfg)
  room : s.phase = .opening ∨ s.phase = .building →
    s.job.accepted.length = 0 ∨ s.job.accepted.length + 1 ≤ targetCount cfg
  full : s.phase = .leftByMax → targetCount cfg ≤ s.job.accepted.length

theorem counted_enter (cfg : LoopConfig) (publisher : PublishFlashblock)
    (prologue : List (Extension Tx)) : Counted cfg (LoopState.enter publisher prologue) where
  refines := ⟨_, Refines.enter publisher prologue⟩
  bound := Nat.zero_le _
  room := fun _ => .inl rfl
  full := fun h => by cases h

theorem Counted.transition (hs : Counted cfg s) (h : Transition cfg s t) : Counted cfg t := by
  obtain ⟨log, hlog⟩ := hs.refines
  cases h with
  | opened phase create =>
    exact ⟨hs.refines, hs.bound, fun _ => hs.room (.inl phase), fun h => by cases h⟩
  | rewritten extensions phase handle =>
    obtain ⟨ops, hops⟩ := hlog.handle handle
    cases handle
    exact ⟨⟨_, hops⟩, hs.bound, hs.room, hs.full⟩
  | buildFailed phase build =>
    exact ⟨hs.refines, hs.bound, fun h => by simp at h, fun h => by cases h⟩
  | called phase handle =>
    obtain ⟨ops, hops⟩ := hlog.handle handle
    have hlen := JobState.accepted_length_of_handle handle
    have hroom := hs.room (.inr phase)
    refine ⟨⟨_, hops⟩, ?_, fun h => by simp at h, fun h => by cases h⟩
    dsimp only
    omega
  | continued phase target_eq below =>
    refine ⟨hs.refines, hs.bound, fun _ => .inr ?_, fun h => by cases h⟩
    have hle := UInt64.le_iff_toNat_le.mp below
    rw [hlog.counter, target_toNat_eq target_eq] at hle
    exact hle
  | stopped phase target_eq above =>
    refine ⟨hs.refines, hs.bound, fun h => by simp at h, fun _ => ?_⟩
    have hlt : ¬ s.job.payload.context.current.toNat ≤ _ :=
      fun hle => above (UInt64.le_iff_toNat_le.mpr hle)
    rw [hlog.counter, target_toNat_eq target_eq] at hlt
    dsimp only
    omega

theorem counted_of_run {publisher : PublishFlashblock} {prologue : List (Extension Tx)}
    {events : List (LoopEvent Tx)}
    (h : run (LoopState.handle cfg) (LoopState.enter publisher prologue) events = some s) :
    Counted cfg s :=
  run_invariant (fun _ _ _ hs he => hs.transition (LoopState.transition_of_handle he))
    (counted_enter cfg publisher prologue) h

/-- **The number of published flashblocks.** No run publishes more than the
target, one flashblock being published even when the target is zero; a run
that the counter ends has published exactly the target, with the indices
from zero on. -/
theorem published_count {publisher : PublishFlashblock} {prologue : List (Extension Tx)}
    {events : List (LoopEvent Tx)}
    (h : run (LoopState.handle cfg) (LoopState.enter publisher prologue) events = some s) :
    s.job.accepted.length ≤ max 1 (cfg.deadline.asMillis ⌈/⌉ cfg.interval.asMillis) ∧
    (1 ≤ cfg.deadline.asMillis ⌈/⌉ cfg.interval.asMillis → s.phase = .leftByMax →
      s.job.accepted.length = cfg.deadline.asMillis ⌈/⌉ cfg.interval.asMillis ∧
      s.job.accepted.map (fun m => m.index.toNat) =
        List.range (cfg.deadline.asMillis ⌈/⌉ cfg.interval.asMillis)) := by
  have hs := counted_of_run h
  refine ⟨hs.bound, fun hpos hleft => ?_⟩
  obtain ⟨log, hlog⟩ := hs.refines
  have hlen : s.job.accepted.length = cfg.deadline.asMillis ⌈/⌉ cfg.interval.asMillis := by
    have hfull := hs.full hleft
    have hbound := hs.bound
    unfold targetCount at hfull hbound
    omega
  exact ⟨hlen, hlen ▸ hlog.indices⟩

/-- Two flashblocks in three iterations: the second message is rejected once. -/
theorem published_count_retry :
    ∃ s : LoopState Bytes,
      run (LoopState.handle twoIntervals) (LoopState.enter {} [])
        [.openScope ⟨0⟩, .publish (.withSink (.ok 0)), .check,
          .openScope ⟨0⟩, .publish (.withSink (.error "closed")), .check,
          .openScope ⟨0⟩, .publish (.withSink (.ok 0)), .check] = some s ∧
      s.phase = .leftByMax ∧ s.job.accepted.length = 2 := by
  exact exists_run LoopState.phase (v := .leftByMax) rfl
    fun s hs hphase => ⟨hphase, ((published_count hs).2 (by decide) hphase).1⟩

end UnichainBuilder.FlashblockCount

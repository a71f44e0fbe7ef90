import UnichainBuilder.FlashblocksLoop

/-! # Flashblock windows and the payload deadline

How long a window is and how many there are is decided in two places.
`FlashblockLimits` partitions the time that remains, capped by the block
time; `BreakAfterMaxFlashblocks` divides the whole deadline. This file says
exactly when the two counts agree and when a window ends by the deadline. -/
namespace UnichainBuilder.Deadlines
open UnichainBuilder.Lib.RustStd UnichainBuilder.Lib.Runs UnichainBuilder.Lib.Countdown
open UnichainBuilder.Block UnichainBuilder.Checkpoints UnichainBuilder.Publish
open UnichainBuilder.Limits UnichainBuilder.Stop UnichainBuilder.FlashblocksLoop

/-! ## The two counts -/

/-- **When the two counts agree.** With an interval of at least one
millisecond, `create` and `BreakAfterMaxFlashblocks` compute the same number
exactly when deadline and interval fit into `u64` milliseconds and the start
delay and the block time take off less than the first interval of the
deadline (or the deadline has no whole millisecond). -/
theorem targets_agree_iff {cfg : LoopConfig} {elapsed : Duration}
    (hinterval : 0 < cfg.interval.asMillis) :
    (∃ target window,
      FlashblockLimits.partition ⟨cfg.interval⟩ cfg.block elapsed cfg.limits =
        .ok (target, window) ∧
      BreakAfterMaxFlashblocks.targetFlashblocks ⟨cfg.interval⟩ cfg.limits = .ok target) ↔
    cfg.deadline.asMillis ≤ u64Max ∧ cfg.interval.asMillis ≤ u64Max ∧
      (cfg.deadline.asMillis = 0 ∨
        cfg.interval.asMillis * (cfg.deadline.asMillis ⌈/⌉ cfg.interval.asMillis - 1) <
          FlashblockLimits.remainingMs cfg.block elapsed cfg.deadline) := by
  have hle := FlashblockLimits.remainingMs_le cfg.block elapsed cfg.deadline
  constructor
  · rintro ⟨target, window, hcreate, hstop⟩
    obtain ⟨deadline, hd, _, hi, _, ht, _⟩ := FlashblockLimits.partition_eq_ok.mp hcreate
    obtain ⟨deadline', hd', hdm, _, _, ht'⟩ :=
      BreakAfterMaxFlashblocks.targetFlashblocks_eq_ok.mp hstop
    cases hd
    cases hd'
    refine ⟨hdm, hi, ?_⟩
    rcases Nat.eq_zero_or_pos cfg.deadline.asMillis with hzero | hpos
    · exact .inl hzero
    · exact .inr ((ceilDiv_eq_iff hinterval hle hpos).mp (ht.symm.trans ht'))
  · rintro ⟨hdm, hi, hreach⟩
    have heq : FlashblockLimits.remainingMs cfg.block elapsed cfg.deadline ⌈/⌉
        cfg.interval.asMillis = cfg.deadline.asMillis ⌈/⌉ cfg.interval.asMillis := by
      rcases hreach with hzero | hreach
      · have hrem : FlashblockLimits.remainingMs cfg.block elapsed cfg.deadline = 0 :=
          Nat.le_zero.mp (hzero ▸ hle)
        rw [hrem, hzero]
      · exact (ceilDiv_eq_iff hinterval hle (Nat.zero_lt_of_lt hreach |>.trans_le hle)).mpr hreach
    obtain ⟨target, ht⟩ := exists_toNat_of_le
      ((ceilDiv_le_self (r := cfg.deadline.asMillis) hinterval).trans hdm)
    exact ⟨target, _,
      FlashblockLimits.partition_eq_ok.mpr
        ⟨cfg.deadline, rfl, hle.trans hdm, hi, hinterval, ht.trans heq.symm, rfl⟩,
      BreakAfterMaxFlashblocks.targetFlashblocks_eq_ok.mpr
        ⟨cfg.deadline, rfl, hdm, hi, hinterval, ht⟩⟩

/-- Opening on time, the two counts are both 2. -/
theorem targets_agree_on_time :
    ∃ target window,
      FlashblockLimits.partition ⟨twoIntervals.interval⟩ twoIntervals.block ⟨0⟩
        twoIntervals.limits = .ok (target, window) ∧
      BreakAfterMaxFlashblocks.targetFlashblocks ⟨twoIntervals.interval⟩ twoIntervals.limits =
        .ok target :=
  (targets_agree_iff (by decide)).mpr (by decide)

/-- A start delay of 300 ms: the gas is split for one flashblock, the loop
stops after two. -/
theorem targets_differ_after_delay :
    Duration.fromMillis 300 < twoIntervals.deadline ∧
    FlashblockLimits.partition ⟨twoIntervals.interval⟩ twoIntervals.block (.fromMillis 300)
      twoIntervals.limits = .ok (1, .fromMillis 200) ∧
    BreakAfterMaxFlashblocks.targetFlashblocks ⟨twoIntervals.interval⟩ twoIntervals.limits =
      .ok 2 :=
  ⟨by decide, rfl, rfl⟩

/-! ## The end of a window -/

variable {Tx : Type} [Encodable2718 Tx] {cfg : LoopConfig} {s t : LoopState Tx}

/-- Every recorded scope has the limits that `create` returned when it opened. -/
theorem scopes_of_run {publisher : PublishFlashblock} {prologue : List (Extension Tx)}
    {events : List (LoopEvent Tx)}
    (h : run (LoopState.handle cfg) (LoopState.enter publisher prologue) events = some s) :
    ∀ scope ∈ s.scopes, ∃ payload : Payload Tx,
      FlashblockLimits.create ⟨cfg.interval⟩ payload cfg.block scope.openedAt cfg.limits =
        .ok scope.limits := by
  refine run_invariant (P := fun s => ∀ scope ∈ s.scopes, ∃ payload : Payload Tx,
    FlashblockLimits.create ⟨cfg.interval⟩ payload cfg.block scope.openedAt cfg.limits =
      .ok scope.limits) ?_ (fun _ hm => by cases hm) h
  intro s e t hs he
  cases LoopState.transition_of_handle he with
  | opened phase create =>
    intro scope hm
    rcases List.mem_append.mp hm with hm | hm
    · exact hs scope hm
    · obtain rfl := List.mem_singleton.mp hm
      exact ⟨_, create⟩
  | rewritten | buildFailed | called | continued | stopped => exact hs

/-- The window of the scope ends by the payload deadline. -/
def WithinDeadline (cfg : LoopConfig) (scope : Scope) : Prop :=
  ∃ window ∈ scope.limits.deadline, scope.openedAt + window ≤ cfg.deadline

instance (cfg : LoopConfig) (scope : Scope) : Decidable (WithinDeadline cfg scope) :=
  inferInstanceAs (Decidable
    (∃ window ∈ scope.limits.deadline, scope.openedAt + window ≤ cfg.deadline))

/-- A whole millisecond is left before the deadline. On a block that is no
younger than its parent `create` hands out a full interval, which must fit. -/
def TimeRemains (cfg : LoopConfig) (openedAt : Duration) : Prop :=
  if cfg.block.timestamp ≤ cfg.block.parent.timestamp then
    openedAt + cfg.interval ≤ cfg.deadline
  else openedAt + .fromMillis 1 ≤ cfg.deadline

instance (cfg : LoopConfig) (openedAt : Duration) : Decidable (TimeRemains cfg openedAt) :=
  inferInstanceAs (Decidable (if cfg.block.timestamp ≤ cfg.block.parent.timestamp then
    openedAt + cfg.interval ≤ cfg.deadline else openedAt + .fromMillis 1 ≤ cfg.deadline))

theorem blockTime_eq_zero_iff (block : BlockContext) :
    (FlashblockLimits.blockTime block).nanos = 0 ↔ block.timestamp ≤ block.parent.timestamp := by
  rw [UInt64.le_iff_toNat_le]
  simp only [FlashblockLimits.blockTime, Duration.nanos_fromSecs, toNat_saturatingSub]
  omega

/-- The block time is a number of whole seconds, so only the deadline can
leave less than a millisecond. -/
theorem remainingMs_pos_iff (block : BlockContext) (elapsed deadline : Duration) :
    0 < FlashblockLimits.remainingMs block elapsed deadline ↔
      ¬ block.timestamp ≤ block.parent.timestamp ∧ elapsed + .fromMillis 1 ≤ deadline := by
  have hwhole : (FlashblockLimits.blockTime block).nanos % 1000000000 = 0 := by
    simp [FlashblockLimits.blockTime]
  rw [← blockTime_eq_zero_iff, Duration.le_def]
  simp only [FlashblockLimits.remainingMs, Duration.asMillis, Duration.nanos_min,
    Duration.nanos_saturatingSub, Duration.nanos_add, Duration.nanos_fromMillis,
    UInt64.toNat_one]
  omega

/-- The window that `create` sets is at most the time that remains, as long as
a millisecond remains. -/
theorem window_le_remaining {interval deadline elapsed : Duration} {block : BlockContext}
    (hwhole : interval.nanos = interval.asMillis * 1000000)
    (hpos : 0 < FlashblockLimits.remainingMs block elapsed deadline) :
    elapsed + firstDeadline interval (FlashblockLimits.remainingMs block elapsed deadline) ≤
      deadline := by
  have hcell := firstCell_le_self (c := interval.asMillis) hpos
  have hnanos := nanos_firstDeadline hwhole (FlashblockLimits.remainingMs block elapsed deadline)
  have hle : FlashblockLimits.remainingMs block elapsed deadline ≤
      (deadline.saturatingSub elapsed).asMillis := Duration.asMillis_mono (min_le_left _ _)
  simp only [Duration.asMillis, Duration.nanos_saturatingSub] at hle
  rw [Duration.le_def, Duration.nanos_add, hnanos]
  omega

/-- A full interval that is handed out with nothing left. -/
theorem full_window_iff (hwhole : cfg.interval.nanos = cfg.interval.asMillis * 1000000)
    (hpos : 0 < cfg.interval.asMillis) {openedAt : Duration}
    (hzero : FlashblockLimits.remainingMs cfg.block openedAt cfg.deadline = 0) :
    openedAt + cfg.interval ≤ cfg.deadline ↔ TimeRemains cfg openedAt := by
  have hremains := remainingMs_pos_iff cfg.block openedAt cfg.deadline
  rw [TimeRemains]
  split
  · rfl
  · rename_i hblock
    have hshort : ¬ openedAt + .fromMillis 1 ≤ cfg.deadline := fun hle => by
      have := hremains.mpr ⟨hblock, hle⟩
      omega
    refine iff_of_false (fun hle => hshort (hle.trans' ?_)) hshort
    simp only [Duration.le_def, Duration.nanos_add, Duration.nanos_fromMillis, hwhole,
      UInt64.toNat_one]
    omega

omit [Encodable2718 Tx] in
theorem withinDeadline_iff (hwhole : cfg.interval.nanos = cfg.interval.asMillis * 1000000)
    (hpos : 0 < cfg.interval.asMillis) {payload : Payload Tx} {scope : Scope}
    (h : FlashblockLimits.create ⟨cfg.interval⟩ payload cfg.block scope.openedAt cfg.limits =
      .ok scope.limits) :
    WithinDeadline cfg scope ↔ TimeRemains cfg scope.openedAt := by
  obtain ⟨target, window, hpart, hlimits⟩ := FlashblockLimits.create_eq_ok.mp h
  obtain ⟨deadline, hd, _, _, _, _, hwindow⟩ := FlashblockLimits.partition_eq_ok.mp hpart
  cases hd
  have hwithin : WithinDeadline cfg scope ↔ scope.openedAt + window ≤ cfg.deadline := by
    simp [WithinDeadline, hlimits]
  rw [hwithin, hwindow]
  rcases Nat.eq_zero_or_pos
    (FlashblockLimits.remainingMs cfg.block scope.openedAt cfg.deadline) with hzero | hleft
  · -- nothing remains: the window is a full interval all the same
    have hfull : firstDeadline cfg.interval 0 = cfg.interval := by simp [firstDeadline]
    rw [hzero, hfull]
    exact full_window_iff hwhole hpos hzero
  · obtain ⟨hblock, hle⟩ := (remainingMs_pos_iff _ _ _).mp hleft
    rw [TimeRemains, if_neg hblock]
    exact iff_of_true (window_le_remaining hwhole hleft) hle

/-- **When windows end by the deadline.** In every run of the loop with an
interval of whole milliseconds, all windows end by the payload deadline
exactly when time remains at every opening. -/
theorem scopes_within_deadline_iff {publisher : PublishFlashblock}
    {prologue : List (Extension Tx)} {events : List (LoopEvent Tx)}
    (hwhole : cfg.interval.nanos = cfg.interval.asMillis * 1000000)
    (hpos : 0 < cfg.interval.asMillis)
    (h : run (LoopState.handle cfg) (LoopState.enter publisher prologue) events = some s) :
    (∀ scope ∈ s.scopes, WithinDeadline cfg scope) ↔
      ∀ scope ∈ s.scopes, TimeRemains cfg scope.openedAt := by
  refine forall₂_congr fun scope hm => ?_
  obtain ⟨payload, hcreate⟩ := scopes_of_run h scope hm
  exact withinDeadline_iff hwhole hpos hcreate

/-- Two windows opened with time left, the second after a rejected message. -/
theorem scopes_within_deadline_retry :
    ∃ s : LoopState Bytes,
      run (LoopState.handle twoIntervals) (LoopState.enter {} [])
        [.openScope ⟨0⟩, .publish (.withSink (.error "closed")), .check,
          .openScope (.fromMillis 10)] = some s ∧
      ∀ scope ∈ s.scopes, WithinDeadline twoIntervals scope := by
  refine exists_run LoopState.scopes
    (v := [⟨⟨0⟩, ⟨15000000, some (.fromMillis 250)⟩⟩,
      ⟨.fromMillis 260, ⟨30000000, some (.fromMillis 240)⟩⟩]) rfl fun s hs hscopes => ?_
  refine (scopes_within_deadline_iff (by decide) (by decide) hs).mpr ?_
  rw [hscopes]
  decide

/-- The first scope opens 300 ms late and ends with the deadline. The count of
the whole deadline asks for a second one, which gets a full interval. -/
theorem scope_beyond_deadline :
    ∃ s : LoopState Bytes,
      run (LoopState.handle twoIntervals) (LoopState.enter {} [])
        [.openScope (.fromMillis 300), .publish (.withSink (.ok 0)), .check, .openScope ⟨0⟩] =
          some s ∧
      s.phase = .building ∧ ∃ scope ∈ s.scopes, ¬ WithinDeadline twoIntervals scope := by
  refine exists_run (fun s => (s.phase, s.scopes))
    (v := (.building, [⟨.fromMillis 300, ⟨30000000, some (.fromMillis 200)⟩⟩,
      ⟨.fromMillis 500, ⟨60000000, some (.fromMillis 250)⟩⟩])) rfl fun s hs hboth => ?_
  obtain ⟨hphase, hscopes⟩ := Prod.mk.inj hboth
  refine ⟨hphase, ?_⟩
  rw [hscopes]
  decide

end UnichainBuilder.Deadlines

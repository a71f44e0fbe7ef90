import Mathlib.Algebra.BigOperators.Ring.List
import UnichainBuilder.FlashblocksLoop

/-! # The schedule of flashblock windows

Every scope partitions the time that is left anew, and may open late. The
windows of one job still lie on one grid: what is left, in whole milliseconds,
is counted down in cells of the interval. The part of a millisecond that the
first partition drops is lost once and shifts the grid by that much. -/
namespace UnichainBuilder.Schedule
open UnichainBuilder.Lib.RustStd UnichainBuilder.Lib.Runs UnichainBuilder.Lib.Countdown
open UnichainBuilder.Block UnichainBuilder.Limits UnichainBuilder.FlashblocksLoop

/-- A scope with the number of flashblocks its partition announced. -/
structure Opening where
  openedAt : Duration
  announced : UInt64
  deadline : Duration
  deriving DecidableEq, Repr, Inhabited

/-- Scopes opened one after another, each some delay after the end of the
window before it. -/
def openings (cfg : LoopConfig) (clock : Duration) : List Duration → Except Panic (List Opening)
  | [] => .ok []
  | delay :: delays => do
    let openedAt := clock + delay
    let (announced, deadline) ←
      FlashblockLimits.partition ⟨cfg.interval⟩ cfg.block openedAt cfg.limits
    let later ← openings cfg (openedAt + deadline) delays
    return ⟨openedAt, announced, deadline⟩ :: later

/-- The whole milliseconds before the deadline. -/
def leftMs (cfg : LoopConfig) (t : Duration) : Nat := (cfg.deadline.saturatingSub t).asMillis

/-- At least one of them is left. -/
def inTime (cfg : LoopConfig) (o : Opening) : Bool := 0 < leftMs cfg o.openedAt

/-- What the schedule asks of a job: an interval of whole milliseconds, a
deadline within the block time, and both within `u64` milliseconds. -/
structure WellTimed (cfg : LoopConfig) : Prop where
  whole : cfg.interval.nanos = cfg.interval.asMillis * 1000000
  positive : 0 < cfg.interval.asMillis
  intervalFits : cfg.interval.asMillis ≤ u64Max
  deadlineFits : cfg.deadline.asMillis ≤ u64Max
  capped : cfg.deadline ≤ FlashblockLimits.blockTime cfg.block

theorem openings_cons_eq_ok {cfg : LoopConfig} {clock delay : Duration} {delays : List Duration}
    {scopes : List Opening} :
    openings cfg clock (delay :: delays) = .ok scopes ↔
      ∃ announced deadline later,
        FlashblockLimits.partition ⟨cfg.interval⟩ cfg.block (clock + delay) cfg.limits =
          .ok (announced, deadline) ∧
        openings cfg (clock + delay + deadline) delays = .ok later ∧
        scopes = ⟨clock + delay, announced, deadline⟩ :: later := by
  simp only [openings, bind_eq_ok, Prod.exists, pure_eq_ok]
  constructor
  · rintro ⟨announced, deadline, hp, later, hl, rfl⟩
    exact ⟨announced, deadline, later, hp, hl, rfl⟩
  · rintro ⟨announced, deadline, later, hp, hl, rfl⟩
    exact ⟨announced, deadline, hp, later, hl, rfl⟩

/-! ## The loop opens its scopes on such a schedule -/

/-- The scopes of a run of the loop are openings, the gas limit left out. -/
theorem scopes_are_openings {Tx : Type} [Encodable2718 Tx] {cfg : LoopConfig}
    {events : List (LoopEvent Tx)} {s t : LoopState Tx}
    (h : run (LoopState.handle cfg) s events = some t) :
    ∃ delays scopes, openings cfg s.clock delays = .ok scopes ∧
      t.scopes.map (fun c => (c.openedAt, c.limits.deadline)) =
        s.scopes.map (fun c => (c.openedAt, c.limits.deadline)) ++
          scopes.map (fun o => (o.openedAt, some o.deadline)) := by
  induction events generalizing s with
  | nil => cases h; exact ⟨[], [], rfl, by simp⟩
  | cons e es ih =>
    obtain ⟨s', he, hrest⟩ := run_cons_eq_some.mp h
    obtain ⟨delays, scopes, hopen, hscopes⟩ := ih hrest
    cases LoopState.transition_of_handle he with
    | @opened delay limits phase create =>
      obtain ⟨announced, deadline, hpart, rfl⟩ := FlashblockLimits.create_eq_ok.mp create
      refine ⟨delay :: delays, _, openings_cons_eq_ok.mpr ⟨announced, deadline, scopes, hpart,
        hopen, rfl⟩, ?_⟩
      rw [hscopes, List.map_append, List.append_assoc]
      rfl
    | rewritten | buildFailed | called | continued | stopped =>
      exact ⟨delays, scopes, hopen, hscopes⟩

/-! ## The countdown behind the schedule -/

section
variable {cfg : LoopConfig} (h : WellTimed cfg)
include h

/-- The cap by the block time does not bind. -/
theorem remainingMs_eq_leftMs (openedAt : Duration) :
    FlashblockLimits.remainingMs cfg.block openedAt cfg.deadline = leftMs cfg openedAt := by
  rw [FlashblockLimits.remainingMs, min_eq_left, leftMs]
  exact le_trans (Nat.sub_le _ _) h.capped

theorem partition_of_wellTimed (openedAt : Duration) :
    ∃ announced deadline,
      FlashblockLimits.partition ⟨cfg.interval⟩ cfg.block openedAt cfg.limits =
        .ok (announced, deadline) ∧
      announced.toNat = leftMs cfg openedAt ⌈/⌉ cfg.interval.asMillis ∧
      deadline.nanos = firstCell cfg.interval.asMillis (leftMs cfg openedAt) * 1000000 := by
  have hrem := remainingMs_eq_leftMs h openedAt
  have hfits : leftMs cfg openedAt ≤ u64Max :=
    (Duration.asMillis_mono (Nat.sub_le _ _)).trans h.deadlineFits
  obtain ⟨announced, ha⟩ := exists_toNat_of_le ((ceilDiv_le_self h.positive).trans hfits)
  exact ⟨announced, _, FlashblockLimits.partition_eq_ok.mpr
    ⟨cfg.deadline, rfl, hrem ▸ hfits, h.intervalFits, h.positive, hrem.symm ▸ ha, rfl⟩, ha,
    hrem.symm ▸ nanos_firstDeadline h.whole _⟩

/-- An opening in the terms of the countdown: announcement, window, and the
part of a millisecond that is not counted. -/
structure Counts (cfg : LoopConfig) (start : Duration) (o : Opening) : Prop where
  announced : o.announced.toNat = leftMs cfg o.openedAt ⌈/⌉ cfg.interval.asMillis
  deadline : o.deadline.nanos = firstCell cfg.interval.asMillis (leftMs cfg o.openedAt) * 1000000
  dropped : 0 < leftMs cfg o.openedAt →
    (cfg.deadline.nanos - o.openedAt.nanos) % 1000000 =
      (cfg.deadline.nanos - start.nanos) % 1000000

omit h in
/-- A window and an overrun of whole milliseconds are taken off what is left. -/
theorem leftMs_next {openedAt deadline overrun : Duration} {cell : Nat}
    (hd : deadline.nanos = cell * 1000000) (hover : overrun.nanos = overrun.asMillis * 1000000) :
    leftMs cfg (openedAt + deadline + overrun) =
      leftMs cfg openedAt - (cell + overrun.asMillis) := by
  simp only [leftMs, Duration.asMillis, Duration.nanos_saturatingSub, Duration.nanos_add]
    at hover ⊢
  omega

omit h in
/-- As long as the deadline is not passed, they drop no other part of a millisecond. -/
theorem dropped_next {openedAt deadline overrun : Duration} {cell : Nat}
    (hd : deadline.nanos = cell * 1000000) (hover : overrun.nanos = overrun.asMillis * 1000000)
    (hpos : 0 < leftMs cfg (openedAt + deadline + overrun)) :
    (cfg.deadline.nanos - (openedAt + deadline + overrun).nanos) % 1000000 =
      (cfg.deadline.nanos - openedAt.nanos) % 1000000 := by
  simp only [leftMs, Duration.asMillis, Duration.nanos_saturatingSub, Duration.nanos_add]
    at hover hpos ⊢
  omega

/-- Openings count the milliseconds at the first one down. -/
theorem openings_countdown {overruns : List Duration}
    (hwhole : ∀ o ∈ overruns, o.nanos = o.asMillis * 1000000) (clock delay : Duration) :
    ∃ scopes, openings cfg clock (delay :: overruns) = .ok scopes ∧
      scopes.map (fun o => leftMs cfg o.openedAt) =
        countdown cfg.interval.asMillis (leftMs cfg (clock + delay))
          (overruns.map Duration.asMillis) ∧
      ∀ o ∈ scopes, Counts cfg (clock + delay) o := by
  induction overruns generalizing clock delay with
  | nil =>
    obtain ⟨announced, deadline, hpart, ha, hd⟩ := partition_of_wellTimed h (clock + delay)
    refine ⟨_, openings_cons_eq_ok.mpr ⟨announced, deadline, [], hpart, rfl, rfl⟩, rfl, ?_⟩
    intro o hm
    obtain rfl := List.mem_singleton.mp hm
    exact ⟨ha, hd, fun _ => rfl⟩
  | cons overrun overruns ih =>
    obtain ⟨announced, deadline, hpart, ha, hd⟩ := partition_of_wellTimed h (clock + delay)
    obtain ⟨scopes, hscopes, hleft, hcounts⟩ :=
      ih (fun o hm => hwhole o (List.mem_cons_of_mem _ hm)) (clock + delay + deadline) overrun
    have hover := hwhole overrun List.mem_cons_self
    have hnext : leftMs cfg (clock + delay + deadline + overrun) = leftMs cfg (clock + delay) -
        (firstCell cfg.interval.asMillis (leftMs cfg (clock + delay)) + overrun.asMillis) :=
      leftMs_next hd hover
    refine ⟨_, openings_cons_eq_ok.mpr ⟨announced, deadline, scopes, hpart, hscopes, rfl⟩, ?_, ?_⟩
    · rw [List.map_cons, hleft, hnext, List.map_cons, countdown]
    · intro o hm
      rcases List.mem_cons.mp hm with rfl | hm
      · exact ⟨ha, hd, fun _ => rfl⟩
      · have hc := hcounts o hm
        refine ⟨hc.announced, hc.deadline, fun hpos => (hc.dropped hpos).trans ?_⟩
        have hle := le_of_mem_countdown (hleft ▸ List.mem_map_of_mem hm)
        exact dropped_next hd hover (hpos.trans_le hle)

end

/-! ## The schedule -/

section
variable {cfg : LoopConfig} (h : WellTimed cfg)
include h

/-- A window that begins in time ends on the grid. -/
theorem Counts.on_grid {start : Duration} {o : Opening} (hc : Counts cfg start o)
    (hin : inTime cfg o = true) :
    0 < o.deadline.nanos ∧ o.deadline ≤ cfg.interval ∧
      ∃ j, o.openedAt.nanos + o.deadline.nanos + j * cfg.interval.nanos +
        (cfg.deadline.nanos - start.nanos) % 1000000 = cfg.deadline.nanos := by
  have hpos : 0 < leftMs cfg o.openedAt := of_decide_eq_true hin
  have hcell := firstCell_pos (r := leftMs cfg o.openedAt) h.positive
  have hfull := firstCell_le (r := leftMs cfg o.openedAt) h.positive
  have hself := firstCell_le_self (c := cfg.interval.asMillis) hpos
  have hrest := sub_firstCell h.positive hpos
  have hdropped := hc.dropped hpos
  refine ⟨by rw [hc.deadline]; omega, ?_, leftMs cfg o.openedAt ⌈/⌉ cfg.interval.asMillis - 1, ?_⟩
  · rw [Duration.le_def, hc.deadline, h.whole]; omega
  · rw [hc.deadline, h.whole, ← Nat.mul_assoc, Nat.mul_comm (_ - 1), ← hrest, ← hdropped]
    simp only [leftMs, Duration.asMillis, Duration.nanos_saturatingSub] at *
    omega

omit h in
/-- The openings in time are the cells of the countdown with something left. -/
theorem map_inTime {scopes : List Opening} {c r : Nat} {overruns : List Nat}
    (hleft : scopes.map (fun o => leftMs cfg o.openedAt) = countdown c r overruns) :
    (scopes.filter (inTime cfg)).map (fun o => leftMs cfg o.openedAt) = running c r overruns := by
  rw [running, ← hleft, List.filter_map]
  rfl

/-- Without overruns the windows in time fill what is left. -/
theorem complete_of_no_overruns {start : Duration} {scopes : List Opening} {k : Nat}
    (hleft : scopes.map (fun o => leftMs cfg o.openedAt) =
      countdown cfg.interval.asMillis (leftMs cfg start) (List.replicate k 0))
    (hcounts : ∀ o ∈ scopes, Counts cfg start o)
    (hlong : leftMs cfg start ⌈/⌉ cfg.interval.asMillis ≤ k + 1) :
    (scopes.filter (inTime cfg)).length = leftMs cfg start ⌈/⌉ cfg.interval.asMillis ∧
      (∀ o ∈ (scopes.filter (inTime cfg)).tail, o.deadline = cfg.interval) ∧
      ((scopes.filter (inTime cfg)).map (fun o => o.deadline.nanos)).sum +
        (cfg.deadline.nanos - start.nanos) % 1000000 = cfg.deadline.nanos - start.nanos := by
  have hmap := map_inTime hleft
  obtain ⟨hlen, hsum⟩ := running_complete h.positive hlong
  refine ⟨?_, ?_, ?_⟩
  · rw [← hlen, ← hmap, List.length_map]
  · intro o hm
    have hc := hcounts o (List.mem_of_mem_filter (List.mem_of_mem_tail hm))
    have htail := List.mem_map_of_mem (f := fun o => leftMs cfg o.openedAt) hm
    rw [List.map_tail, hmap] at htail
    apply Duration.nanos_injective
    rw [hc.deadline, firstCell_tail_running h.positive htail, h.whole]
  · have hnanos : (scopes.filter (inTime cfg)).map (fun o => o.deadline.nanos) =
        (running cfg.interval.asMillis (leftMs cfg start) (List.replicate k 0)).map
          (fun x => firstCell cfg.interval.asMillis x * 1000000) := by
      rw [← hmap, List.map_map]
      exact List.map_congr_left fun o hm => (hcounts o (List.mem_of_mem_filter hm)).deadline
    rw [hnanos, List.sum_map_mul_right, hsum]
    exact Nat.div_add_mod' _ _

/-- **One drift-free schedule.** Whatever whole milliseconds the scopes open
late, the windows that begin in time end on the grid of the interval, anchored
where the milliseconds of the first partition run out; after each of them only
fewer flashblocks are announced, and there are at most as many as the first one
announces. Without overruns there are exactly as many, all but the first last
the interval, and together they use up what was counted. -/
theorem schedule_drift_free (start : Duration) {overruns : List Duration}
    (hwhole : ∀ o ∈ overruns, o.nanos = o.asMillis * 1000000) :
    ∃ scopes, openings cfg ⟨0⟩ (start :: overruns) = .ok scopes ∧
      (∀ o ∈ scopes.filter (inTime cfg), 0 < o.deadline.nanos ∧ o.deadline ≤ cfg.interval ∧
        ∃ j, o.openedAt.nanos + o.deadline.nanos + j * cfg.interval.nanos +
          (cfg.deadline.nanos - start.nanos) % 1000000 = cfg.deadline.nanos) ∧
      scopes.Pairwise (fun a b => inTime cfg a = true → b.announced < a.announced) ∧
      (scopes.filter (inTime cfg)).length ≤ leftMs cfg start ⌈/⌉ cfg.interval.asMillis ∧
      ((∀ o ∈ overruns, o = ⟨0⟩) →
        leftMs cfg start ⌈/⌉ cfg.interval.asMillis ≤ overruns.length + 1 →
        (scopes.filter (inTime cfg)).length = leftMs cfg start ⌈/⌉ cfg.interval.asMillis ∧
        (∀ o ∈ (scopes.filter (inTime cfg)).tail, o.deadline = cfg.interval) ∧
        ((scopes.filter (inTime cfg)).map (fun o => o.deadline.nanos)).sum +
          (cfg.deadline.nanos - start.nanos) % 1000000 = cfg.deadline.nanos - start.nanos) := by
  have hstart : (⟨0⟩ + start : Duration) = start :=
    Duration.nanos_injective (Nat.zero_add start.nanos)
  obtain ⟨scopes, hscopes, hleft, hcounts⟩ := openings_countdown h hwhole ⟨0⟩ start
  rw [hstart] at hleft hcounts
  refine ⟨scopes, hscopes, ?_, ?_, ?_, ?_⟩
  · intro o hm
    obtain ⟨hm, hin⟩ := List.mem_filter.mp hm
    exact (hcounts o hm).on_grid h hin
  · have hpair := pairwise_countdown h.positive (leftMs cfg start)
      (overruns.map Duration.asMillis)
    rw [← hleft, List.pairwise_map] at hpair
    refine hpair.imp_of_mem fun ha hb hlt hin => ?_
    rw [UInt64.lt_iff_toNat_lt, (hcounts _ ha).announced, (hcounts _ hb).announced]
    exact hlt (of_decide_eq_true hin)
  · rw [← List.length_map (fun o => leftMs cfg o.openedAt), map_inTime hleft]
    exact length_running_le h.positive _ _
  · intro hzero hlong
    have hreplicate : overruns.map Duration.asMillis = List.replicate overruns.length 0 := by
      rw [List.eq_replicate_of_mem hzero]
      simp [Duration.asMillis]
    rw [hreplicate] at hleft
    exact complete_of_no_overruns h hleft hcounts hlong

end

/-- A start at 20 ms and no overruns: windows of 230 ms and 250 ms. -/
theorem schedule_drift_free_twoIntervals :
    ∃ scopes, openings twoIntervals ⟨0⟩ [.fromMillis 20, ⟨0⟩] = .ok scopes ∧
      (scopes.filter (inTime twoIntervals)).length = 2 := by
  have hw : WellTimed twoIntervals :=
    ⟨by decide, by decide, by decide, by decide, by decide⟩
  have hwhole : ∀ o ∈ [(⟨0⟩ : Duration)], o.nanos = o.asMillis * 1000000 := by decide
  obtain ⟨scopes, hscopes, _, _, _, hexact⟩ := schedule_drift_free hw (.fromMillis 20) hwhole
  exact ⟨scopes, hscopes, (hexact (by decide) (by decide)).1⟩

/-- Half a millisecond into the job the first window ends half a millisecond
before the grid of the deadline, and the sum falls short by as much. -/
theorem schedule_off_grid :
    ∃ o : Opening, openings twoIntervals ⟨0⟩ [⟨500000⟩, ⟨0⟩] =
        .ok [o, ⟨⟨249500000⟩, 1, .fromMillis 250⟩] ∧
      o.openedAt + .fromMillis 1 ≤ twoIntervals.deadline ∧
      (¬ ∃ j, o.openedAt.nanos + o.deadline.nanos + j * twoIntervals.interval.nanos =
        twoIntervals.deadline.nanos) ∧
      o.deadline.nanos + 250000000 ≠ twoIntervals.deadline.nanos - o.openedAt.nanos := by
  refine ⟨⟨⟨500000⟩, 2, .fromMillis 249⟩, rfl, by decide, ?_, by decide⟩
  rintro ⟨j, hj⟩
  have : 249500000 + j * 250000000 = 500000000 := hj
  omega

end UnichainBuilder.Schedule

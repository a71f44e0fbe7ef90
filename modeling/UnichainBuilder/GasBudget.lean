import Mathlib.Data.List.Chain
import UnichainBuilder.PublishedLog
import UnichainBuilder.Schedule

/-! # The gas budget of a flashblock

`create` multiplies the flashblock number, counted from the start of the job,
with a share of the gas limit that is computed from the time left at the
call. The divisor shrinks while the factor grows, so the product can pass the
limit it was taken from. -/
namespace UnichainBuilder.GasBudget
open UnichainBuilder.Lib.RustStd UnichainBuilder.Lib.Runs UnichainBuilder.Lib.Countdown
open UnichainBuilder.State UnichainBuilder.Block UnichainBuilder.Checkpoints
open UnichainBuilder.Publish UnichainBuilder.Job UnichainBuilder.PublishedLog
open UnichainBuilder.Limits UnichainBuilder.FlashblocksLoop UnichainBuilder.Schedule

/-- A call of `create` and what it returned. -/
structure Call (Tx : Type) where
  payload : Payload Tx
  elapsed : Duration
  limits : Limits

variable {Tx : Type} {cfg : LoopConfig}

/-- A later call is for the same flashblock, or for the next one after the
window of the earlier call. -/
def Follows (earlier later : Call Tx) : Prop :=
  (later.payload.context = earlier.payload.context ∧ earlier.elapsed ≤ later.elapsed) ∨
    (earlier.payload.context.next = .ok later.payload.context ∧
      ∃ window ∈ earlier.limits.deadline, earlier.elapsed + window ≤ later.elapsed)

/-- The calls of `create` in one job, from the first flashblock on. -/
structure JobCalls (cfg : LoopConfig) (calls : List (Call Tx)) : Prop where
  first : ∀ c ∈ calls.head?, c.payload.context = .new
  follows : calls.IsChain Follows
  returned : ∀ c ∈ calls,
    FlashblockLimits.create ⟨cfg.interval⟩ c.payload cfg.block c.elapsed cfg.limits = .ok c.limits

/-- The number of flashblocks that the time left at the call is split into. -/
def split (cfg : LoopConfig) (c : Call Tx) : Nat :=
  FlashblockLimits.remainingMs cfg.block c.elapsed cfg.deadline ⌈/⌉ cfg.interval.asMillis

/-- The flashblock number does not pass the number of flashblocks that the
time left is split into, or the remainder of the division covers the excess;
with no time left only the first flashblock fits. -/
def FitsBudget (cfg : LoopConfig) (c : Call Tx) : Prop :=
  let number := c.payload.context.current.toNat
  let gas := cfg.gasLimit.toNat
  gas = u64Max ∨
    if split cfg c = 0 then number = 1 ∨ gas = 0
    else number ≤ split cfg c ∨ gas / split cfg c * (number - split cfg c) ≤ gas % split cfg c

theorem share_mul_le_iff {gas t n : Nat} (ht : 0 < t) :
    gas / t * n ≤ gas ↔ n ≤ t ∨ gas / t * (n - t) ≤ gas % t := by
  have hdiv := Nat.div_add_mod' gas t
  rcases Nat.le_total n t with hn | hn
  · refine iff_of_true ?_ (.inl hn)
    exact (Nat.mul_le_mul_left _ hn).trans (Nat.div_mul_le_self gas t)
  · have hsplit : gas / t * n = gas / t * t + gas / t * (n - t) := by
      rw [← Nat.mul_add, Nat.add_sub_cancel' hn]
    constructor
    · intro h; right; omega
    · rintro (h | h)
      · obtain rfl := Nat.le_antisymm h hn
        exact Nat.div_mul_le_self gas n
      · omega

theorem mul_le_self_iff {gas n : Nat} (hn : 0 < n) : gas * n ≤ gas ↔ n = 1 ∨ gas = 0 := by
  constructor
  · intro h
    by_contra hc
    have : gas * 2 ≤ gas * n := Nat.mul_le_mul_left _ (by omega)
    omega
  · rintro (rfl | rfl)
    · exact (Nat.mul_one gas).le
    · exact (Nat.zero_mul n).le

/-- One call keeps to the limit exactly when it fits. -/
theorem fitsBudget_iff {c : Call Tx}
    (h : FlashblockLimits.create ⟨cfg.interval⟩ c.payload cfg.block c.elapsed cfg.limits =
      .ok c.limits) :
    c.limits.gasLimit ≤ cfg.gasLimit ↔ FitsBudget cfg c := by
  obtain ⟨target, window, hpart, hlimits⟩ := FlashblockLimits.create_eq_ok.mp h
  obtain ⟨deadline, hd, _, _, _, ht, _⟩ := FlashblockLimits.partition_eq_ok.mp hpart
  cases hd
  have hn := c.payload.context.pos
  have hmax := toNat_le_u64Max cfg.gasLimit
  have hsplit : target.toNat = split cfg c := ht
  rw [UInt64.le_iff_toNat_le, hlimits, FlashblockLimits.toNat_gasLimit, FitsBudget, hsplit,
    min_le_iff]
  rw [show u64Max ≤ cfg.gasLimit.toNat ↔ cfg.gasLimit.toNat = u64Max by omega, or_comm]
  refine or_congr_right ?_
  split
  · exact mul_le_self_iff hn
  · rename_i hzero
    exact share_mul_le_iff (Nat.pos_of_ne_zero hzero)

/-- **When the gas limits stay within the block's.** In every sequence of
calls of one job, each returned gas limit is at most the enclosing one exactly
when every call fits the budget. -/
theorem gas_within_enclosing_iff {calls : List (Call Tx)} (h : JobCalls cfg calls) :
    (∀ c ∈ calls, c.limits.gasLimit ≤ cfg.gasLimit) ↔ ∀ c ∈ calls, FitsBudget cfg c :=
  forall₂_congr fun c hm => fitsBudget_iff (h.returned c hm)

def threeIntervals : LoopConfig := { twoIntervals with deadline := .fromMillis 750 }

/-- A job on time: the first two of its three flashblocks. -/
theorem gas_within_enclosing_on_time :
    let calls : List (Call Bytes) :=
      [⟨.new, ⟨0⟩, ⟨10000000, some (.fromMillis 250)⟩⟩,
        ⟨Payload.new.barrierWithContext ⟨2, by decide⟩, .fromMillis 250,
          ⟨30000000, some (.fromMillis 250)⟩⟩]
    ∀ c ∈ calls, c.limits.gasLimit ≤ threeIntervals.gasLimit := by
  refine (gas_within_enclosing_iff ⟨?_, ?_, ?_⟩).mpr ?_
  · rintro c ⟨⟩; rfl
  · exact .cons_cons (.inr ⟨rfl, _, rfl, by decide⟩) (.singleton _)
  · intro c hm
    simp only [List.mem_cons, List.not_mem_nil, or_false] at hm
    rcases hm with rfl | rfl <;> rfl
  · intro c hm
    simp only [List.mem_cons, List.not_mem_nil, or_false] at hm
    rcases hm with rfl | rfl <;> exact .inr (.inl (by decide))

/-- A job on time: the second of its two flashblocks may use twice the gas
limit of the block. -/
theorem gas_exceeds_enclosing :
    ∃ calls : List (Call Bytes), JobCalls twoIntervals calls ∧
      ∃ c ∈ calls, ¬ c.limits.gasLimit ≤ twoIntervals.gasLimit := by
  refine ⟨[⟨.new, ⟨0⟩, ⟨15000000, some (.fromMillis 250)⟩⟩,
    ⟨Payload.new.barrierWithContext ⟨2, by decide⟩, .fromMillis 250,
      ⟨60000000, some (.fromMillis 250)⟩⟩], ⟨?_, ?_, ?_⟩, ?_⟩
  · rintro c ⟨⟩; rfl
  · exact .cons_cons (.inr ⟨rfl, _, rfl, by decide⟩) (.singleton _)
  · intro c hm
    simp only [List.mem_cons, List.not_mem_nil, or_false] at hm
    rcases hm with rfl | rfl <;> rfl
  · exact ⟨_, List.mem_cons_of_mem _ List.mem_cons_self, by decide⟩

/-! ## The budget of a later call -/

/-- The share of one flashblock grows as the split shrinks, and is the whole
gas limit once nothing is left to split. -/
theorem share_mono {gas t t' : Nat} (h : t' ≤ t) :
    (if t = 0 then gas else gas / t) ≤ if t' = 0 then gas else gas / t' := by
  by_cases hzero : t' = 0
  · rw [if_pos hzero]
    split
    · exact Nat.le_refl gas
    · exact Nat.div_le_self gas t
  · have hpos : t ≠ 0 := by omega
    rw [if_neg hzero, if_neg hpos]
    exact Nat.div_le_div_left h (Nat.pos_of_ne_zero hzero)

/-- **The budget never shrinks.** With the flashblock number and the elapsed
time at least those of an earlier call that returned, `create` returns again,
and no smaller gas limit. -/
theorem gas_never_shrinks {self : FlashblockLimits} {block : BlockContext}
    {enclosing limits : Limits} {earlier later : Payload Tx} {elapsed elapsed' : Duration}
    (hnumber : earlier.context.current ≤ later.context.current) (helapsed : elapsed ≤ elapsed')
    (h : self.create earlier block elapsed enclosing = .ok limits) :
    ∃ limits', self.create later block elapsed' enclosing = .ok limits' ∧
      limits.gasLimit ≤ limits'.gasLimit := by
  obtain ⟨target, window, hpart, rfl⟩ := FlashblockLimits.create_eq_ok.mp h
  obtain ⟨deadline, hd, hfits, hi, hpos, ht, _⟩ := FlashblockLimits.partition_eq_ok.mp hpart
  have hrem := FlashblockLimits.remainingMs_anti block helapsed deadline
  have hcells := ceilDiv_mono (c := self.interval.asMillis) hrem
  rw [← ht] at hcells
  obtain ⟨target', ht'⟩ := exists_toNat_of_le (hcells.trans (toNat_le_u64Max target))
  refine ⟨_, FlashblockLimits.create_eq_ok.mpr ⟨target', _, FlashblockLimits.partition_eq_ok.mpr
    ⟨deadline, hd, hrem.trans hfits, hi, hpos, ht', rfl⟩, rfl⟩, ?_⟩
  rw [UInt64.le_iff_toNat_le, FlashblockLimits.toNat_gasLimit, FlashblockLimits.toNat_gasLimit]
  refine min_le_min_right _ (Nat.mul_le_mul (share_mono ?_) (UInt64.le_iff_toNat_le.mp hnumber))
  rw [ht']
  exact hcells

/-- The second flashblock, created on time and again after the deadline. -/
theorem gas_never_shrinks_overtime :
    let payload : Payload Bytes := Payload.new.barrierWithContext ⟨2, by decide⟩
    ∃ limits', FlashblockLimits.create ⟨.fromMillis 250⟩ payload twoIntervals.block
        (.fromMillis 600) twoIntervals.limits = .ok limits' ∧
      60000000 ≤ limits'.gasLimit := by
  intro payload
  have hfirst : FlashblockLimits.create ⟨.fromMillis 250⟩ payload twoIntervals.block
      (.fromMillis 250) twoIntervals.limits = .ok ⟨60000000, some (.fromMillis 250)⟩ := rfl
  exact gas_never_shrinks (Std.le_refl _) (by decide) hfirst

/-! ## The scopes of the loop are such calls -/

section
variable [Encodable2718 Tx] {s t : LoopState Tx} {calls : List (Call Tx)}

/-- The calls behind the scopes of a run. The window of the last one is over
when the next scope opens; it was for the current flashblock, or for the one
before, which has been published since. -/
structure LoopCalls (cfg : LoopConfig) (s : LoopState Tx) (calls : List (Call Tx)) : Prop where
  job : JobCalls cfg calls
  scopes : s.scopes = calls.map fun c => ⟨c.elapsed, c.limits⟩
  refines : ∃ log, Refines s.job log
  noneYet : calls = [] → s.phase = .opening ∧ s.job.payload.context = .new
  last : ∀ c ∈ calls.getLast?, (∃ window ∈ c.limits.deadline, c.elapsed + window ≤ s.clock) ∧
    (s.job.payload.context = c.payload.context ∨
      s.phase ≠ .building ∧ c.payload.context.next = .ok s.job.payload.context)

/-- The call that a new scope makes continues the job. -/
theorem LoopCalls.opened (h : LoopCalls cfg s calls) {delay : Duration} {limits : Limits}
    (hcreate : FlashblockLimits.create ⟨cfg.interval⟩ s.job.payload cfg.block (s.clock + delay)
      cfg.limits = .ok limits) :
    JobCalls cfg (calls ++ [⟨s.job.payload, s.clock + delay, limits⟩]) := by
  constructor
  · intro c hc
    cases calls with
    | nil =>
      cases hc
      exact (h.noneYet rfl).2
    | cons first rest => exact h.job.first c hc
  · refine h.job.follows.append (.singleton _) fun c hc c' hc' => ?_
    cases hc'
    obtain ⟨⟨window, hwindow, hover⟩, hsame | ⟨_, hnext⟩⟩ := h.last c hc
    · exact .inl ⟨hsame, le_trans (Nat.le_add_right _ _) (hover.trans (Nat.le_add_right _ _))⟩
    · exact .inr ⟨hnext, window, hwindow, hover.trans (Nat.le_add_right _ _)⟩
  · intro c hm
    rcases List.mem_append.mp hm with hm | hm
    · exact h.job.returned c hm
    · obtain rfl := List.mem_singleton.mp hm
      exact hcreate

theorem LoopCalls.transition (h : LoopCalls cfg s calls) (ht : Transition cfg s t) :
    ∃ calls', LoopCalls cfg t calls' := by
  obtain ⟨log, hlog⟩ := h.refines
  cases ht with
  | @opened delay limits phase create =>
    refine ⟨_, h.opened create, ?_, h.refines, fun hnil => by simp at hnil, ?_⟩
    · rw [h.scopes, List.map_append]; rfl
    · intro c hc
      rw [List.getLast?_concat] at hc
      cases hc
      obtain ⟨_, window, _, rfl⟩ := FlashblockLimits.create_eq_ok.mp create
      exact ⟨⟨window, rfl, le_refl _⟩, .inl rfl⟩
  | rewritten extensions phase handle =>
    obtain ⟨ops, hops⟩ := hlog.handle handle
    obtain ⟨published, barrier, rest, hsplit, _⟩ := hlog.split
    cases handle
    refine ⟨calls, h.job, h.scopes, ⟨_, hops⟩, fun hnil => ?_, fun c hc => ?_⟩
    · exact absurd ((h.noneYet hnil).1.symm.trans phase) (by simp)
    · rw [hsplit.context_rewrite extensions]; exact h.last c hc
  | buildFailed phase build =>
    refine ⟨calls, h.job, h.scopes, h.refines, fun hnil => ?_, fun c hc => ?_⟩
    · exact absurd ((h.noneYet hnil).1.symm.trans phase) (by simp)
    · obtain ⟨hover, hctx⟩ := h.last c hc
      exact ⟨hover, hctx.imp_right fun hn => absurd phase hn.1⟩
  | called phase handle =>
    obtain ⟨ops, hops⟩ := hlog.handle handle
    refine ⟨calls, h.job, h.scopes, ⟨_, hops⟩, fun hnil => ?_, fun c hc => ?_⟩
    · exact absurd ((h.noneYet hnil).1.symm.trans phase) (by simp)
    · obtain ⟨hover, hctx⟩ := h.last c hc
      have hsame := hctx.resolve_right fun hn => hn.1 phase
      refine ⟨hover, ?_⟩
      rw [← hsame]
      exact (JobState.context_of_handle_step handle).imp_right fun hn => ⟨by simp, hn⟩
  | continued phase | stopped phase =>
    refine ⟨calls, h.job, h.scopes, h.refines, fun hnil => ?_, fun c hc => ?_⟩
    · exact absurd ((h.noneYet hnil).1.symm.trans phase) (by simp)
    · obtain ⟨hover, hctx⟩ := h.last c hc
      exact ⟨hover, hctx.imp_right fun hn => ⟨by simp, hn.2⟩⟩

/-- **The loop makes the calls of a job**, so whatever holds of those holds of
the limits of its scopes. -/
theorem scopes_are_calls {publisher : PublishFlashblock} {prologue : List (Extension Tx)}
    {events : List (LoopEvent Tx)}
    (h : run (LoopState.handle cfg) (LoopState.enter publisher prologue) events = some s) :
    ∃ calls : List (Call Tx), JobCalls cfg calls ∧
      s.scopes = calls.map fun c => ⟨c.elapsed, c.limits⟩ := by
  have henter : ∃ calls, LoopCalls cfg (LoopState.enter publisher prologue) calls := by
    obtain ⟨_, _, _, hc⟩ := Payload.extendAll_spec prologue (Payload.new : Payload Tx)
    exact ⟨[], ⟨by simp, .nil, by simp⟩, rfl, ⟨_, Refines.enter publisher prologue⟩,
      fun _ => ⟨rfl, hc⟩, by simp⟩
  obtain ⟨calls, hcalls⟩ := run_invariant (P := fun s => ∃ calls, LoopCalls cfg s calls)
    (fun _ _ _ ⟨_, hs⟩ he => hs.transition (LoopState.transition_of_handle he)) henter h
  exact ⟨calls, hcalls.job, hcalls.scopes⟩

end

/-! ## Past the middle of a job -/

/-- Time goes on, and with every flashblock the split shrinks by one at least
until nothing is left. -/
structure Later (cfg : LoopConfig) (a b : Call Tx) : Prop where
  elapsed : a.elapsed ≤ b.elapsed
  split : leftMs cfg b.elapsed = 0 ∨
    split cfg b + b.payload.context.current.toNat ≤ split cfg a + a.payload.context.current.toNat

theorem Later.trans {a b c : Call Tx} (hab : Later cfg a b) (hbc : Later cfg b c) :
    Later cfg a c := by
  refine ⟨hab.elapsed.trans hbc.elapsed, ?_⟩
  rcases hbc.split with hc | hc
  · exact .inl hc
  · rcases hab.split with hb | hb
    · have hle : leftMs cfg c.elapsed ≤ leftMs cfg b.elapsed :=
        Duration.asMillis_mono (Nat.sub_le_sub_left hbc.elapsed _)
      exact .inl (Nat.le_zero.mp (hb ▸ hle))
    · exact .inr (hc.trans hb)

section
variable (hw : WellTimed cfg)
include hw

theorem split_eq (c : Call Tx) :
    split cfg c = leftMs cfg c.elapsed ⌈/⌉ cfg.interval.asMillis := by
  rw [split, remainingMs_eq_leftMs hw]

theorem Follows.later {a b : Call Tx} (h : Follows a b)
    (hret : FlashblockLimits.create ⟨cfg.interval⟩ a.payload cfg.block a.elapsed cfg.limits =
      .ok a.limits) : Later cfg a b := by
  rcases h with ⟨hsame, helapsed⟩ | ⟨hnext, window, hwindow, helapsed⟩
  · refine ⟨helapsed, .inr ?_⟩
    rw [hsame, split_eq hw, split_eq hw]
    exact Nat.add_le_add_right
      (ceilDiv_mono (Duration.asMillis_mono (Nat.sub_le_sub_left helapsed _))) _
  · refine ⟨le_trans (Nat.le_add_right _ _) helapsed, ?_⟩
    obtain ⟨target, window', hpart, hlimits⟩ := FlashblockLimits.create_eq_ok.mp hret
    obtain ⟨_, _, hpart', _, hnanos⟩ := partition_of_wellTimed hw a.elapsed
    cases hpart.symm.trans hpart'
    rw [hlimits] at hwindow
    cases hwindow
    rcases Nat.eq_zero_or_pos (leftMs cfg b.elapsed) with hzero | hleft
    · exact .inl hzero
    · have hcell : leftMs cfg b.elapsed ≤ leftMs cfg a.elapsed -
          firstCell cfg.interval.asMillis (leftMs cfg a.elapsed) := by
        rw [Duration.le_def, Duration.nanos_add, hnanos] at helapsed
        simp only [leftMs, Duration.asMillis, Duration.nanos_saturatingSub] at helapsed ⊢
        omega
      have hlt := ceilDiv_lt hw.positive (by omega) hcell
      right
      rw [split_eq hw, split_eq hw, FlashblockNumber.toNat_of_next hnext]
      omega

/-- Number and split of any call add up to at most what they do at the first. -/
theorem split_add_number_le {first : Call Tx} {calls : List (Call Tx)}
    (h : JobCalls cfg (first :: calls)) {c : Call Tx} (hm : c ∈ calls) :
    leftMs cfg c.elapsed = 0 ∨
      split cfg c + c.payload.context.current.toNat ≤ split cfg first + 1 := by
  have hchain : (first :: calls).IsChain (Later cfg) :=
    h.follows.imp_of_mem_imp fun a b ha _ hf => hf.later hw (h.returned a ha)
  have : Trans (Later cfg) (Later cfg) (Later cfg : Call Tx → Call Tx → Prop) := ⟨Later.trans⟩
  have hlater := (List.pairwise_cons.mp hchain.pairwise).1 c hm
  have hfirst := h.first first rfl
  rw [← FlashblockNumber.toNat_new, ← hfirst]
  exact hlater.split

/-- **Past the middle of a job every budget is too large.** Once the number
passes half of what the first call announced, the gas limit of the flashblock
exceeds the block's, as soon as that is at least the square of the announced
number. -/
theorem gas_exceeds_past_middle {first : Call Tx} {calls : List (Call Tx)}
    (h : JobCalls cfg (first :: calls)) {c : Call Tx} (hm : c ∈ calls)
    (hnumber : 1 < c.payload.context.current.toNat)
    (hmiddle : split cfg first + 1 < 2 * c.payload.context.current.toNat)
    (hgas : 0 < cfg.gasLimit.toNat) (hmax : cfg.gasLimit.toNat < u64Max)
    (hsquare : split cfg first * split cfg first ≤ cfg.gasLimit.toNat) :
    cfg.gasLimit < c.limits.gasLimit := by
  rw [UInt64.lt_iff_toNat_lt, ← Nat.not_le, ← UInt64.le_iff_toNat_le,
    fitsBudget_iff (h.returned c (List.mem_cons_of_mem _ hm))]
  rintro (hfits | hfits)
  · omega
  · by_cases hzero : split cfg c = 0
    · rw [if_pos hzero] at hfits; omega
    · rw [if_neg hzero] at hfits
      have hsum : split cfg c + c.payload.context.current.toNat ≤ split cfg first + 1 :=
        (split_add_number_le hw h hm).resolve_left fun hl => hzero (by
          rw [split_eq hw, hl, zero_ceilDiv])
      have hpos := Nat.pos_of_ne_zero hzero
      have hshare : split cfg c ≤ cfg.gasLimit.toNat / split cfg c :=
        (Nat.le_div_iff_mul_le hpos).mpr
          ((Nat.mul_le_mul (by omega) (by omega)).trans hsquare)
      have hrem := Nat.mod_lt cfg.gasLimit.toNat hpos
      have hone : cfg.gasLimit.toNat / split cfg c ≤
          cfg.gasLimit.toNat / split cfg c *
            (c.payload.context.current.toNat - split cfg c) :=
        Nat.le_mul_of_pos_right _ (by omega)
      omega

end

end UnichainBuilder.GasBudget

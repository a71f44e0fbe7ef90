import UnichainBuilder.Lib.RustStd

/-! # Publication timestamps and the metrics they feed

`Metrics` and `Times` of `publish.rs`. A counter is its count and a histogram
the list of its samples, oldest first. The atomics are read and written by
one callback at a time, so a callback is a function of the five timestamps
and the instant it reads from the clock. -/
namespace UnichainBuilder.Timing
open UnichainBuilder.Lib.RustStd

structure Metrics where
  blocksTotal : Nat := 0
  gasPerBlock : List Nat := []
  blobGasPerBlock : List Nat := []
  txsPerBlock : List Nat := []
  bundlesPerBlock : List Nat := []
  intraBlockInterval : List Duration := []
  interBlockInterval : List Duration := []
  interJobsInterval : List Duration := []
  timeToFirstBlock : List Duration := []
  idleTailTime : List Duration := []
  websocketPublishErrorsTotal : Nat := 0
  deriving DecidableEq, Repr, Inhabited

/-- `Histogram::record`. -/
def record {α : Type} (samples : List α) (sample : α) : List α := samples ++ [sample]

structure Times where
  jobStarted : Option Instant := none
  jobEnded : Option Instant := none
  firstBlockAt : Option Instant := none
  previousBlockAt : Option Instant := none
  lastBlockAt : Option Instant := none
  deriving DecidableEq, Repr, Inhabited

namespace Times

def onJobStarted (times : Times) (metrics : Metrics) (now : Instant) : Times × Metrics :=
  let swapped := { times with jobStarted := some now, jobEnded := none }
  match times.jobEnded with
  | some endedAt =>
    let duration := endedAt.durationSince now
    (swapped, { metrics with interJobsInterval := record metrics.interJobsInterval duration })
  | none => (swapped, metrics)

def onJobEnded (times : Times) (metrics : Metrics) (now : Instant) : Times × Metrics :=
  let metrics := match times.lastBlockAt with
    | some lastBlockAt =>
      let idleTailTime := now.durationSince lastBlockAt
      { metrics with idleTailTime := record metrics.idleTailTime idleTailTime }
    | none => metrics
  ({ times with
      jobEnded := some now
      jobStarted := none
      firstBlockAt := none
      previousBlockAt := none }, metrics)

/-- The branch of `on_published_block` taken when the compare-exchange on
`first_block_at` succeeds. -/
def onFirstBlock (times : Times) (metrics : Metrics) (now : Instant) : Metrics :=
  let metrics := match times.lastBlockAt with
    | some lastBlockAt =>
      let duration := now.durationSince lastBlockAt
      { metrics with interBlockInterval := record metrics.interBlockInterval duration }
    | none => metrics
  match times.jobStarted with
  | some jobStarted =>
    let duration := now.durationSince jobStarted
    { metrics with timeToFirstBlock := record metrics.timeToFirstBlock duration }
  | none => metrics

def onPublishedBlock (times : Times) (metrics : Metrics) (now : Instant) : Times × Metrics :=
  let lastBlockAt := times.lastBlockAt
  let (firstBlockAt, metrics) := match times.firstBlockAt with
    | none => (some now, onFirstBlock times metrics now)
    | some first => (some first, metrics)
  -- the swap returns what the load above already read
  let prevAt := times.lastBlockAt
  let metrics := match lastBlockAt, prevAt with
    | some lastBlockAt, some prevAt =>
      let duration := lastBlockAt.durationSince prevAt
      { metrics with intraBlockInterval := record metrics.intraBlockInterval duration }
    | _, _ => metrics
  ({ times with firstBlockAt, lastBlockAt := some now, previousBlockAt := prevAt }, metrics)

end Times

/-! ## The metrics that do not measure time -/

/-- Without the intervals. -/
def Metrics.untimed (metrics : Metrics) : Metrics :=
  { metrics with
    intraBlockInterval := []
    interBlockInterval := []
    interJobsInterval := []
    timeToFirstBlock := []
    idleTailTime := [] }

namespace Times

theorem untimed_onJobStarted (times : Times) (metrics : Metrics) (now : Instant) :
    (times.onJobStarted metrics now).2.untimed = metrics.untimed := by
  unfold onJobStarted
  split <;> rfl

theorem untimed_onJobEnded (times : Times) (metrics : Metrics) (now : Instant) :
    (times.onJobEnded metrics now).2.untimed = metrics.untimed := by
  unfold onJobEnded
  split <;> rfl

theorem untimed_onFirstBlock (times : Times) (metrics : Metrics) (now : Instant) :
    (times.onFirstBlock metrics now).untimed = metrics.untimed := by
  unfold onFirstBlock
  split <;> split <;> rfl

theorem untimed_onPublishedBlock (times : Times) (metrics : Metrics) (now : Instant) :
    (times.onPublishedBlock metrics now).2.untimed = metrics.untimed := by
  have hfirst := untimed_onFirstBlock times metrics now
  unfold onPublishedBlock
  cases times.firstBlockAt <;> cases times.lastBlockAt <;> first | exact hfirst | rfl

end Times
end UnichainBuilder.Timing

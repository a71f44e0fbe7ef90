import UnichainBuilder.Stop
import UnichainBuilder.Job

/-! # The flashblocks loop

The loop that `build_pipeline` puts into the pipeline. An iteration opens a
`single_flashblock` scope, whose steps rewrite the payload until its deadline,
then publishes, then checks the number of flashblocks. The three steps meet
only in the payload and in the deadline of the enclosing scope. -/
namespace UnichainBuilder.FlashblocksLoop
open UnichainBuilder.Lib.RustStd UnichainBuilder.Lib.Runs UnichainBuilder.Block
open UnichainBuilder.Checkpoints UnichainBuilder.Publish UnichainBuilder.Job
open UnichainBuilder.Limits UnichainBuilder.Stop

structure LoopConfig where
  block : BlockContext
  /-- `flashblocks.interval`, given to both `FlashblockLimits` and
  `BreakAfterMaxFlashblocks`. -/
  interval : Duration
  gasLimit : UInt64
  /-- The deadline of the enclosing scope, leeway subtracted. -/
  deadline : Duration
  deriving DecidableEq, Repr, Inhabited

/-- Half a second in intervals of 250 ms, on two-second blocks. -/
def twoIntervals : LoopConfig where
  block := { (default : BlockContext) with timestamp := 2 }
  interval := .fromMillis 250
  gasLimit := 30000000
  deadline := .fromMillis 500

/-- The limits of the `flashblocks` pipeline, which encloses the scopes. -/
def LoopConfig.limits (cfg : LoopConfig) : Limits := ⟨cfg.gasLimit, some cfg.deadline⟩

/-- What the loop does next, or which step ended it. -/
inductive Phase
  | opening
  | building
  | checking
  | leftByPublish
  | leftByMax
  deriving DecidableEq, Repr

/-- A `single_flashblock` scope: when it opened and the limits it got. -/
structure Scope where
  openedAt : Duration
  limits : Limits
  deriving DecidableEq, Repr, Inhabited

structure LoopState (Tx : Type) where
  job : JobState Tx
  phase : Phase
  /-- The end of the last scope: the next one cannot open earlier. -/
  clock : Duration
  scopes : List Scope

inductive LoopEvent (Tx : Type)
  | openScope (delay : Duration)
  | rewrite (extensions : List (Extension Tx))
  | publish (env : StepEnv)
  | check

namespace LoopState
variable {Tx : Type}

def enter (publisher : PublishFlashblock) (prologue : List (Extension Tx)) : LoopState Tx where
  job := JobState.enter publisher prologue
  phase := .opening
  clock := ⟨0⟩
  scopes := []

def openScope (cfg : LoopConfig) (s : LoopState Tx) (delay : Duration) : Option (LoopState Tx) :=
  let openedAt := s.clock + delay
  match FlashblockLimits.create ⟨cfg.interval⟩ s.job.payload cfg.block openedAt cfg.limits with
  | .ok limits => some { s with
      phase := .building
      clock := openedAt + limits.deadline.getD default
      scopes := s.scopes ++ [⟨openedAt, limits⟩] }
  | .error _ => none

def check (cfg : LoopConfig) (s : LoopState Tx) : Option (LoopState Tx) :=
  match BreakAfterMaxFlashblocks.step ⟨cfg.interval⟩ s.job.payload cfg.limits with
  | .ok (.ok _) => some { s with phase := .opening }
  | .ok (.brk _) => some { s with phase := .leftByMax }
  | .error _ => none

variable [Encodable2718 Tx]

def publish (cfg : LoopConfig) (s : LoopState Tx) (env : StepEnv) : Option (LoopState Tx) :=
  match s.job.publisher.step s.job.payload cfg.block env with
  | .ok r => some { s with
      job := {
        publisher := r.publisher
        payload := r.flow.payload
        accepted := s.job.accepted ++ r.sent.toList }
      phase := match r.flow with
        | .ok _ => .checking
        | .brk _ => .leftByPublish }
  | .error _ => none

/-- `none` for an event that is not next, and for a panic. -/
def handle (cfg : LoopConfig) (s : LoopState Tx) (e : LoopEvent Tx) : Option (LoopState Tx) :=
  match s.phase, e with
  | .opening, .openScope delay => s.openScope cfg delay
  | .building, .rewrite extensions =>
    some { s with job := { s.job with payload := s.job.payload.rewrite extensions } }
  | .building, .publish env => s.publish cfg env
  | .checking, .check => s.check cfg
  | _, _ => none

end LoopState

/-! ## What one event can do -/

/-- The transitions of the loop. A call of the publisher that returns `Ok`,
published or not, leads to the check. -/
inductive Transition {Tx : Type} [Encodable2718 Tx] (cfg : LoopConfig) (s : LoopState Tx) :
    LoopState Tx → Prop
  | opened {delay : Duration} {limits : Limits} (phase : s.phase = .opening)
      (create : FlashblockLimits.create ⟨cfg.interval⟩ s.job.payload cfg.block (s.clock + delay)
        cfg.limits = .ok limits) :
      Transition cfg s { s with
        phase := .building
        clock := s.clock + delay + limits.deadline.getD default
        scopes := s.scopes ++ [⟨s.clock + delay, limits⟩] }
  | rewritten {job : JobState Tx} (extensions : List (Extension Tx)) (phase : s.phase = .building)
      (handle : s.job.handle cfg.block (.rewrite extensions) = some job) :
      Transition cfg s { s with job }
  | buildFailed {env : StepEnv} {e : PayloadBuilderError} (phase : s.phase = .building)
      (build : env.buildPayload = .error e) :
      Transition cfg s { s with phase := .leftByPublish }
  | called {env : StepEnv} {job : JobState Tx} (phase : s.phase = .building)
      (handle : s.job.handle cfg.block (.step env) = some job) :
      Transition cfg s { s with job, phase := .checking }
  | continued {target : UInt64} (phase : s.phase = .checking)
      (target_eq : BreakAfterMaxFlashblocks.targetFlashblocks ⟨cfg.interval⟩ cfg.limits =
        .ok target)
      (below : s.job.payload.context.current ≤ target) :
      Transition cfg s { s with phase := .opening }
  | stopped {target : UInt64} (phase : s.phase = .checking)
      (target_eq : BreakAfterMaxFlashblocks.targetFlashblocks ⟨cfg.interval⟩ cfg.limits =
        .ok target)
      (above : ¬ s.job.payload.context.current ≤ target) :
      Transition cfg s { s with phase := .leftByMax }

namespace LoopState
variable {Tx : Type} [Encodable2718 Tx] {cfg : LoopConfig} {s t : LoopState Tx}

theorem transition_of_publish {env : StepEnv} (phase : s.phase = .building)
    (h : s.publish cfg env = some t) : Transition cfg s t := by
  unfold publish at h
  cases hr : s.job.publisher.step s.job.payload cfg.block env with
  | error p => simp [hr] at h
  | ok r =>
    simp only [hr, Option.some.injEq] at h
    have hjob := JobState.handle_step_eq_some.mpr ⟨r, hr, rfl⟩
    have hreturns := PublishFlashblock.returns_of_step hr
    subst h
    cases hreturns with
    | buildFailed build =>
      simp only [ControlFlow.payload_brk, Option.toList_none, List.append_nil]
      exact .buildFailed phase build
    | rejected => exact .called phase hjob
    | accepted => exact .called phase hjob

theorem transition_of_check (phase : s.phase = .checking) (h : s.check cfg = some t) :
    Transition cfg s t := by
  unfold check at h
  split at h
  · rename_i flow hflow
    obtain ⟨target, htarget, he⟩ := BreakAfterMaxFlashblocks.step_eq_ok.mp hflow
    cases h
    split at he
    · exact .continued phase htarget ‹_›
    · cases he
  · rename_i flow hflow
    obtain ⟨target, htarget, he⟩ := BreakAfterMaxFlashblocks.step_eq_ok.mp hflow
    cases h
    split at he
    · cases he
    · exact .stopped phase htarget ‹_›
  · cases h

/-- Everything one event can do. -/
theorem transition_of_handle {e : LoopEvent Tx} (h : s.handle cfg e = some t) :
    Transition cfg s t := by
  unfold handle at h
  split at h
  · rename_i phase
    unfold openScope at h
    dsimp only at h
    split at h
    · rename_i limits hcreate
      cases h
      exact .opened phase hcreate
    · cases h
  · rename_i phase
    cases h
    exact .rewritten _ phase rfl
  · rename_i phase
    exact transition_of_publish phase h
  · rename_i phase
    exact transition_of_check phase h
  · cases h

end LoopState
end UnichainBuilder.FlashblocksLoop

import UnichainBuilder.Lib.Runs
import UnichainBuilder.Publish

/-! # One payload job

The part of a payload job that `PublishFlashblock` takes part in. Between two
calls of the step the other steps of the pipeline rewrite what follows the
last barrier; a call may fail to build the payload or have its message
rejected, and the job goes on with whatever payload the call returned. A
panic ends the job (`none`). -/
namespace UnichainBuilder.Job
open UnichainBuilder.Lib.RustStd UnichainBuilder.Lib.Runs UnichainBuilder.Block
open UnichainBuilder.Checkpoints UnichainBuilder.Publish

structure JobState (Tx : Type) where
  publisher : PublishFlashblock
  payload : Payload Tx
  /-- The messages the sink accepted, oldest first. -/
  accepted : List OpFlashblockPayload

inductive JobEvent (Tx : Type)
  | rewrite (extensions : List (Extension Tx))
  | step (env : StepEnv)

namespace JobState
variable {Tx : Type}

/-- The job at the entry of the flashblocks loop: the prologue steps have
extended the root. -/
def enter (publisher : PublishFlashblock) (prologue : List (Extension Tx)) : JobState Tx where
  publisher
  payload := Payload.new.extendAll prologue
  accepted := []

variable [Encodable2718 Tx]

def handle (ctx : BlockContext) (s : JobState Tx) : JobEvent Tx → Option (JobState Tx)
  | .rewrite extensions => some { s with payload := s.payload.rewrite extensions }
  | .step env =>
    match s.publisher.step s.payload ctx env with
    | .ok r => some {
        publisher := r.publisher
        payload := r.flow.payload
        accepted := s.accepted ++ r.sent.toList }
    | .error _ => none

theorem handle_step_eq_some {ctx : BlockContext} {s t : JobState Tx} {env : StepEnv} :
    s.handle ctx (.step env) = some t ↔
      ∃ r, s.publisher.step s.payload ctx env = .ok r ∧
        t = { publisher := r.publisher, payload := r.flow.payload,
              accepted := s.accepted ++ r.sent.toList } := by
  simp only [handle]
  cases hr : s.publisher.step s.payload ctx env with
  | ok r => simp [eq_comm]
  | error p => simp

/-- A call keeps the flashblock number or moves on to the next one. -/
theorem context_of_handle_step {ctx : BlockContext} {s t : JobState Tx} {env : StepEnv}
    (h : s.handle ctx (.step env) = some t) :
    t.payload.context = s.payload.context ∨
      s.payload.context.next = .ok t.payload.context := by
  obtain ⟨r, hr, rfl⟩ := handle_step_eq_some.mp h
  cases PublishFlashblock.returns_of_step hr with
  | buildFailed => exact .inl rfl
  | rejected => exact .inl rfl
  | accepted build root publish next_eq =>
    right
    rw [next_eq, ControlFlow.payload_ok, Payload.context_barrierWithContext]

/-- One event adds at most one message. -/
theorem accepted_length_of_handle {ctx : BlockContext} {s t : JobState Tx} {e : JobEvent Tx}
    (h : s.handle ctx e = some t) :
    s.accepted.length ≤ t.accepted.length ∧ t.accepted.length ≤ s.accepted.length + 1 := by
  cases e with
  | rewrite extensions => cases h; exact ⟨Nat.le_refl _, Nat.le_succ _⟩
  | step env =>
    obtain ⟨r, _, rfl⟩ := handle_step_eq_some.mp h
    cases r.sent <;> simp

end JobState
end UnichainBuilder.Job

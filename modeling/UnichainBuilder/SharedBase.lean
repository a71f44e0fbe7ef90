import UnichainBuilder.Publish
import UnichainBuilder.Lib.Runs

/-! # One publisher, several jobs at once

The slot `block_base` belongs to the publisher, not to a job. When the
callbacks of several jobs interleave, the slot holds the base of the last
`before_job` that no other callback has used up since, whoever takes it. -/
namespace UnichainBuilder.SharedBase
open UnichainBuilder.Lib.RustStd UnichainBuilder.Lib.Runs UnichainBuilder.Block
open UnichainBuilder.Checkpoints UnichainBuilder.Publish
open UnichainBuilder.Publish.PublishFlashblock (computeBase)

/-- Where a job is in its own order of callbacks. -/
inductive Stage
  | waiting
  | running
  | ended
  deriving DecidableEq, Repr

inductive Callback (ι Tx : Type)
  | beforeJob (job : ι) (now : Instant)
  | rewrite (job : ι) (extensions : List (Extension Tx))
  | step (job : ι) (env : StepEnv)
  | afterJob (job : ι) (now : Instant)

structure SharedState (ι Tx : Type) where
  publisher : PublishFlashblock
  stage : ι → Stage
  payload : ι → Payload Tx
  /-- The published messages of all jobs, oldest first. -/
  log : List (ι × OpFlashblockPayload)

variable {ι Tx : Type} [DecidableEq ι] [Encodable2718 Tx]

namespace SharedState

def init : SharedState ι Tx where
  publisher := {}
  stage := fun _ => .waiting
  payload := fun _ => Payload.new
  log := []

/-- One callback. `none` when it is out of its job's order, when a publish
does not succeed, and for a panic. -/
def handle (ctx : ι → BlockContext) (s : SharedState ι Tx) :
    Callback ι Tx → Option (SharedState ι Tx)
  | .beforeJob job now =>
    if s.stage job = .waiting then
      some { s with
        publisher := s.publisher.beforeJob (ctx job) now
        stage := Function.update s.stage job .running }
    else none
  | .rewrite job extensions =>
    if s.stage job = .running then
      some { s with payload := Function.update s.payload job ((s.payload job).rewrite extensions) }
    else none
  | .step job env =>
    if s.stage job = .running ∧ env.publish.isOk then
      match s.publisher.step (s.payload job) (ctx job) env with
      | .ok r => some { s with
          publisher := r.publisher
          payload := Function.update s.payload job r.flow.payload
          log := s.log ++ r.sent.toList.map (job, ·) }
      | .error _ => none
    else none
  | .afterJob job now =>
    if s.stage job = .running then
      some { s with
        publisher := s.publisher.afterJob now
        stage := Function.update s.stage job .ended }
    else none

end SharedState

/-! ## Who the slot belongs to -/

def Callback.publishes : Callback ι Tx → Option ι
  | .step job env => match env.buildPayload with
    | .ok _ => some job
    | .error _ => none
  | _ => none

/-- The job whose `before_job` filled the slot, if nothing emptied it since. -/
def slotOwner (events : List (Callback ι Tx)) : Option ι :=
  events.foldl (fun owner e => match e with
    | .beforeJob job _ => some job
    | .rewrite .. => owner
    | .step .. => if e.publishes.isSome then none else owner
    | .afterJob .. => none) none

/-- The message finds in the slot what it needs: a base that is its own job's,
or, once its job has published, possibly nothing. -/
def Undisturbed (ctx : ι → BlockContext) (past : List (Callback ι Tx)) (e : Callback ι Tx) : Prop :=
  ∀ job ∈ e.publishes, match slotOwner past with
    | some owner => computeBase (ctx owner) = computeBase (ctx job)
    | none => job ∈ past.filterMap Callback.publishes

/-- A base in the message is the one of its own job, and the first message of
a job has one. -/
def OwnBase (ctx : ι → BlockContext) (past : List (ι × OpFlashblockPayload))
    (x : ι × OpFlashblockPayload) : Prop :=
  (∀ b ∈ x.2.base, b = computeBase (ctx x.1)) ∧ (x.1 ∉ past.map Prod.fst → x.2.base.isSome)

/-- The slot and the log in terms of the callbacks so far. -/
structure SharedInv (ctx : ι → BlockContext) (past : List (Callback ι Tx))
    (s : SharedState ι Tx) : Prop where
  slot : s.publisher.blockBase = (slotOwner past).map fun job => computeBase (ctx job)
  jobs : s.log.map Prod.fst = past.filterMap Callback.publishes
  bases : AtEvery (OwnBase ctx) [] s.log ↔ AtEvery (Undisturbed ctx) [] past

omit [DecidableEq ι] [Encodable2718 Tx] in
theorem slotOwner_concat (past : List (Callback ι Tx)) (e : Callback ι Tx) :
    slotOwner (past ++ [e]) = match e with
      | .beforeJob job _ => some job
      | .rewrite .. => slotOwner past
      | .step .. => if e.publishes.isSome then none else slotOwner past
      | .afterJob .. => none := by
  rw [slotOwner, List.foldl_append]
  rfl

namespace SharedInv
variable {ctx : ι → BlockContext} {past : List (Callback ι Tx)} {s t : SharedState ι Tx}

omit [DecidableEq ι] [Encodable2718 Tx] in
/-- A callback without a message only has to keep the slot in line. -/
theorem silent (h : SharedInv ctx past s) {e : Callback ι Tx} (hsilent : e.publishes = none)
    (hlog : t.log = s.log)
    (hslot : t.publisher.blockBase =
      (slotOwner (past ++ [e])).map fun job => computeBase (ctx job)) :
    SharedInv ctx (past ++ [e]) t := by
  refine ⟨hslot, ?_, ?_⟩
  · rw [hlog, h.jobs, List.filterMap_append]
    simp [hsilent]
  · have hundisturbed : Undisturbed ctx past e := fun job hm => by simp [hsilent] at hm
    rw [hlog, h.bases, atEvery_concat, List.nil_append]
    exact (and_iff_left hundisturbed).symm

omit [DecidableEq ι] [Encodable2718 Tx] in
/-- A published message is judged by what the slot held. -/
theorem published (h : SharedInv ctx past s) {job : ι} {env : StepEnv} {m : OpFlashblockPayload}
    (hpublishes : (Callback.step job env : Callback ι Tx).publishes = some job)
    (hbase : m.base = s.publisher.blockBase) (hslot : t.publisher.blockBase = none)
    (hlog : t.log = s.log ++ [(job, m)]) : SharedInv ctx (past ++ [.step job env]) t := by
  refine ⟨?_, ?_, ?_⟩
  · rw [hslot, slotOwner_concat]
    simp [hpublishes]
  · rw [hlog, List.map_append, h.jobs, List.filterMap_append]
    simp [hpublishes]
  · rw [hlog, atEvery_concat, atEvery_concat, h.bases, List.nil_append, List.nil_append]
    refine and_congr_right fun _ => ?_
    have hone : Undisturbed ctx past (.step job env) ↔ match slotOwner past with
        | some owner => computeBase (ctx owner) = computeBase (ctx job)
        | none => job ∈ past.filterMap Callback.publishes := by
      simp [Undisturbed, hpublishes]
    rw [hone, OwnBase, hbase, h.slot, h.jobs]
    cases slotOwner past with
    | some owner => simp
    | none => simp

theorem handle (h : SharedInv ctx past s) {e : Callback ι Tx} (he : s.handle ctx e = some t) :
    SharedInv ctx (past ++ [e]) t := by
  cases e with
  | beforeJob job now =>
    rw [SharedState.handle] at he
    obtain ⟨_, he⟩ := Option.ite_none_right_eq_some.mp he
    cases he
    exact h.silent rfl rfl (by rw [slotOwner_concat]; rfl)
  | rewrite job extensions =>
    rw [SharedState.handle] at he
    obtain ⟨_, he⟩ := Option.ite_none_right_eq_some.mp he
    cases he
    exact h.silent rfl rfl (by rw [slotOwner_concat]; exact h.slot)
  | step job env =>
    rw [SharedState.handle] at he
    obtain ⟨⟨_, hok⟩, he⟩ := Option.ite_none_right_eq_some.mp he
    split at he
    · rename_i r hr
      cases he
      cases PublishFlashblock.returns_of_step hr with
      | buildFailed build =>
        have hsilent : (Callback.step job env : Callback ι Tx).publishes = none := by
          simp [Callback.publishes, build]
        refine h.silent hsilent (List.append_nil _) ?_
        rw [slotOwner_concat]
        simpa [hsilent] using h.slot
      | rejected build root publish =>
        simp [publish, Except.isOk, Except.toBool] at hok
      | accepted build root publish next_eq =>
        exact h.published (by simp [Callback.publishes, build]) rfl rfl rfl
    · cases he
  | afterJob job now =>
    rw [SharedState.handle] at he
    obtain ⟨_, he⟩ := Option.ite_none_right_eq_some.mp he
    cases he
    exact h.silent rfl rfl (by rw [slotOwner_concat]; rfl)

end SharedInv

/-- **When interleaved jobs keep their bases apart.** In every interleaving of
the callbacks, with every publish succeeding, each base is published by the
job it was computed for and each job's first message has one, exactly when no
message is disturbed: what fills the slot last before it is its own job's
base, or nothing did and its job has published before. -/
theorem own_bases_iff {ctx : ι → BlockContext} {events : List (Callback ι Tx)}
    {s : SharedState ι Tx} (h : run (SharedState.handle ctx) SharedState.init events = some s) :
    AtEvery (OwnBase ctx) [] s.log ↔ AtEvery (Undisturbed ctx) [] events :=
  (run_history (P := SharedInv ctx) (fun _ _ _ _ hs he => hs.handle he)
    ⟨rfl, rfl, Iff.rfl⟩ h).bases

/-- The contexts of two jobs on consecutive blocks. -/
def twoBlocks (job : Bool) : BlockContext :=
  { (default : BlockContext) with number := if job then 2 else 1 }

/-- The second job starts after the first message of the first, and publishes
before the first job ends. -/
theorem own_bases_overlapping :
    ∃ s : SharedState Bool Bytes,
      run (SharedState.handle twoBlocks) SharedState.init
        [.beforeJob false ⟨0⟩, .step false (.withSink (.ok 0)), .beforeJob true ⟨1⟩,
          .step true (.withSink (.ok 0)), .step false (.withSink (.ok 0)), .afterJob false ⟨2⟩,
          .step true (.withSink (.ok 0)), .afterJob true ⟨3⟩] = some s ∧
      AtEvery (OwnBase twoBlocks) [] s.log := by
  refine exists_run (fun s => s.log.length) (v := 4) rfl fun s hs _ => ?_
  refine (own_bases_iff hs).mpr ?_
  simp [AtEvery, Undisturbed, slotOwner, Callback.publishes, StepEnv.withSink]

/-- The second job starts before the first one publishes: the first message
of the first job carries the base of the second, whose own message has none. -/
theorem base_of_other_job :
    ∃ s : SharedState Bool Bytes,
      run (SharedState.handle twoBlocks) SharedState.init
        [.beforeJob false ⟨0⟩, .beforeJob true ⟨1⟩, .step false (.withSink (.ok 0)),
          .step true (.withSink (.ok 0)), .afterJob false ⟨2⟩, .afterJob true ⟨3⟩] = some s ∧
      s.log.map (fun x => (x.1, x.2.base)) =
        [(false, some (computeBase (twoBlocks true))), (true, none)] ∧
      ¬ AtEvery (OwnBase twoBlocks) [] s.log := by
  refine exists_run (fun s => s.log.map fun x => (x.1, x.2.base))
    (v := [(false, some (computeBase (twoBlocks true))), (true, none)]) rfl
    fun s _ hlog => ⟨hlog, fun hall => ?_⟩
  obtain ⟨⟨job, m⟩, rest, hfirst, hx, _⟩ := List.map_eq_cons_iff.mp hlog
  obtain ⟨rfl, hbase⟩ := Prod.mk.inj hx
  rw [hfirst] at hall
  have hown : computeBase (twoBlocks true) = computeBase (twoBlocks false) := hall.1.1 _ hbase
  exact absurd hown (by decide)

end UnichainBuilder.SharedBase

import UnichainBuilder.FlashblockCount
import UnichainBuilder.Observer
import UnichainBuilder.Shutdown

/-! # Block production

`build_pipeline` gives every payload job the flashblocks loop, and all of them
one publishing step with its sink. The loop of a job decides what is next in
that job; a call of the step is a turn of the node as well. -/
namespace UnichainBuilder.BlockProduction
open UnichainBuilder.Lib.RustStd UnichainBuilder.Lib.Runs UnichainBuilder.Block
open UnichainBuilder.Checkpoints UnichainBuilder.Publish UnichainBuilder.Job
open UnichainBuilder.FlashblocksLoop UnichainBuilder.FlashblockCount UnichainBuilder.Service
open UnichainBuilder.ServiceChannel (job_of_set)
open UnichainBuilder.Shutdown (errors_of_untimed)

/-- Where a job is in its loop. -/
structure JobLoop where
  cfg : LoopConfig
  phase : Phase
  clock : Duration
  scopes : List Scope

structure Builder (Tx : Type) where
  node : Node Tx
  /-- One loop for each job. -/
  loops : List JobLoop

inductive Event (Tx : Type)
  | beforeJob (cfg : LoopConfig) (now : Instant) (prologue : List (Extension Tx))
  | openScope (job : Nat) (delay : Duration)
  | rewrite (job : Nat) (extensions : List (Extension Tx))
  | publish (job : Nat) (call : Call)
  | check (job : Nat)
  | afterJob (job : Nat) (now : Instant)
  | transport (event : WebSocketSink.Event Utf8Bytes)

/-- The job whose loop takes the turn. -/
def Event.turnOf {Tx : Type} : Event Tx → Option Nat
  | .openScope i _ | .rewrite i _ | .publish i _ | .check i => some i
  | .beforeJob .. | .afterJob .. | .transport _ => none

/-- What the turn is to that loop: a call of the step has its answer. -/
inductive Takes {Tx : Type} : Event Tx → LoopEvent Tx → Prop
  | openScope {i : Nat} {delay : Duration} : Takes (.openScope i delay) (.openScope delay)
  | rewrite {i : Nat} {extensions : List (Extension Tx)} :
      Takes (.rewrite i extensions) (.rewrite extensions)
  | publish {i : Nat} {call : Call} (published : Except IoError Nat) :
      Takes (.publish i call) (.publish (call.env published))
  | check {i : Nat} : Takes (.check i) .check

namespace JobLoop
variable {Tx : Type}

def enter (cfg : LoopConfig) : JobLoop where
  cfg
  phase := .opening
  clock := ⟨0⟩
  scopes := []

/-- The loop as it runs with its job and the shared step. -/
def state (self : JobLoop) (publisher : PublishFlashblock) (job : PayloadJob Tx) :
    LoopState Tx where
  job := job.state publisher
  phase := self.phase
  clock := self.clock
  scopes := self.scopes

def after (self : JobLoop) (s : LoopState Tx) : JobLoop where
  cfg := self.cfg
  phase := s.phase
  clock := s.clock
  scopes := s.scopes

end JobLoop

variable {Tx : Type} [Encodable2718 Tx]

/-- The call with what the sink answers to its message. -/
def callEnv (json : PayloadJson) (s : Node Tx) (job : PayloadJob Tx) (call : Call) : StepEnv :=
  match flashblock s.publisher job call with
  | some message => call.env (answer s.sink (json.toString message))
  | none => call.env (.error "")

namespace Builder

def new : Builder Tx where
  node := Node.new
  loops := []

/-- A turn of the loop of a running job, which takes the node to `node`. -/
def turn (s : Builder Tx) (i : Nat) (e : PayloadJob Tx → LoopEvent Tx) (node : Node Tx) :
    Option (Builder Tx) :=
  match s.node.jobs[i]?, s.loops[i]? with
  | some job, some loop =>
    if job.running then
      ((loop.state s.node.publisher job).handle loop.cfg (e job)).map fun after =>
        { node, loops := s.loops.set i (loop.after after) }
    else none
  | _, _ => none

def handle (json : PayloadJson) (s : Builder Tx) : Event Tx → Option (Builder Tx)
  | .beforeJob cfg now prologue =>
    (s.node.handle json (.beforeJob cfg.block now prologue)).map fun node =>
      { node, loops := s.loops ++ [.enter cfg] }
  | .openScope i delay => s.turn i (fun _ => .openScope delay) s.node
  | .rewrite i extensions =>
    (s.node.handle json (.rewrite i extensions)).bind
      (s.turn i fun _ => .rewrite extensions)
  | .publish i call =>
    (s.node.handle json (.step i call)).bind
      (s.turn i fun job => .publish (callEnv json s.node job call))
  | .check i => s.turn i (fun _ => .check) s.node
  | .afterJob i now => (s.node.handle json (.afterJob i now)).map fun node => { s with node }
  | .transport event => (s.node.handle json (.transport event)).map fun node => { s with node }

end Builder

/-! ## The loop and the node agree -/

section
variable {json : PayloadJson} {s t : Builder Tx} {i : Nat}

theorem turn_eq_some {e : PayloadJob Tx → LoopEvent Tx} {node : Node Tx}
    (h : s.turn i e node = some t) :
    ∃ job loop after, s.node.jobs[i]? = some job ∧ s.loops[i]? = some loop ∧
      (loop.state s.node.publisher job).handle loop.cfg (e job) = some after ∧
      t = { node, loops := s.loops.set i (loop.after after) } := by
  unfold Builder.turn at h
  split at h
  · rename_i job loop hjob hloop
    split at h
    · obtain ⟨after, hafter, rfl⟩ := Option.map_eq_some_iff.mp h
      exact ⟨job, loop, after, hjob, hloop, hafter, rfl⟩
    · cases h
  · cases h

/-- What a call of the step makes of the step and of its job. -/
theorem step_eq_some {s t : Node Tx} {call : Call}
    (h : s.handle json (.step i call) = some t) :
    ∃ job r, s.jobs[i]? = some job ∧
      s.publisher.step job.payload job.ctx (callEnv json s job call) = .ok r ∧
      t.publisher = r.publisher ∧
      t.jobs = s.jobs.set i { job with
        payload := r.flow.payload
        accepted := job.accepted ++ r.sent.toList } := by
  obtain ⟨job, get, hstep⟩ := Node.turn_eq_some h
  unfold Node.step at hstep
  split at hstep
  · rename_i message hmessage
    obtain ⟨sink, hsink, hcall⟩ := Option.bind_eq_some_iff.mp hstep
    obtain ⟨r, hr, rfl⟩ := Node.call_eq_some hcall
    refine ⟨job, r, get, ?_, rfl, rfl⟩
    rw [callEnv, hmessage]
    exact hr
  · rename_i hnone
    obtain ⟨r, hr, rfl⟩ := Node.call_eq_some hstep
    refine ⟨job, r, get, ?_, rfl, rfl⟩
    rw [callEnv, hnone]
    exact hr

/-- An event is a turn of the node, or none of its business. -/
theorem node_of_handle {e : Event Tx} (h : s.handle json e = some t) :
    t.node = s.node ∨ ∃ nodeEvent, s.node.handle json nodeEvent = some t.node := by
  cases e with
  | beforeJob cfg now prologue =>
    simp only [Builder.handle] at h
    obtain ⟨node, hnode, rfl⟩ := Option.map_eq_some_iff.mp h
    exact .inr ⟨_, hnode⟩
  | openScope i delay | check i =>
    obtain ⟨_, _, _, _, _, _, rfl⟩ := turn_eq_some h
    exact .inl rfl
  | rewrite i extensions | publish i call =>
    simp only [Builder.handle] at h
    obtain ⟨node, hnode, hturn⟩ := Option.bind_eq_some_iff.mp h
    obtain ⟨_, _, _, _, _, _, rfl⟩ := turn_eq_some hturn
    exact .inr ⟨_, hnode⟩
  | afterJob i now | transport event =>
    simp only [Builder.handle] at h
    obtain ⟨node, hnode, rfl⟩ := Option.map_eq_some_iff.mp h
    exact .inr ⟨_, hnode⟩

/-- The publish errors that the step has counted, whichever job they were. -/
def errors (publisher : PublishFlashblock) : Nat := publisher.metrics.websocketPublishErrorsTotal

theorem errors_le_of_transition {s t : Node Tx} {e : Service.Event Tx}
    (h : Service.Transition json s e t) : errors s.publisher ≤ errors t.publisher := by
  cases h with
  | @opened ctx now prologue =>
    exact Nat.le_of_eq (errors_of_untimed (s.publisher.times.untimed_onJobStarted _ now)).symm
  | rewritten | buildFailed | transported => exact Nat.le_refl _
  | rejected => exact Nat.le_succ _
  | @accepted i call =>
    exact Nat.le_of_eq (errors_of_untimed (s.publisher.times.untimed_onPublishedBlock _ call.now)).symm
  | @closed i now =>
    exact Nat.le_of_eq (errors_of_untimed (s.publisher.times.untimed_onJobEnded _ now)).symm

theorem errors_le_of_handle {e : Event Tx} (h : s.handle json e = some t) :
    errors s.node.publisher ≤ errors t.node.publisher := by
  rcases node_of_handle h with hsame | ⟨nodeEvent, hnode⟩
  · rw [hsame]
  · exact errors_le_of_transition (Node.transition_of_handle hnode)

theorem invariant_of_run {events : List (Event Tx)}
    (h : run (Builder.handle json) Builder.new events = some s) :
    ServiceChannel.Invariant json s.node := by
  have hstep : ∀ (s : Builder Tx) e t, ServiceChannel.Invariant json s.node →
      s.handle json e = some t → ServiceChannel.Invariant json t.node := by
    intro s e t hs he
    rcases node_of_handle he with hsame | ⟨nodeEvent, hnode⟩
    · rw [hsame]
      exact hs
    · exact hs.handle hnode
  exact run_invariant hstep ServiceChannel.invariant_new h

end

/-- What an event of the loop does to the job. -/
theorem job_of_handle {cfg : LoopConfig} {s t : LoopState Tx} {e : LoopEvent Tx}
    (h : s.handle cfg e = some t) :
    match e with
    | .openScope _ | .check => t.job = s.job
    | .rewrite extensions =>
      t.job = { s.job with payload := s.job.payload.rewrite extensions }
    | .publish env => ∃ r, s.job.publisher.step s.job.payload cfg.block env = .ok r ∧
        t.job = {
          publisher := r.publisher
          payload := r.flow.payload
          accepted := s.job.accepted ++ r.sent.toList } := by
  unfold LoopState.handle at h
  split at h
  · simp only [LoopState.openScope] at h
    split at h
    · cases h
      rfl
    · cases h
  · cases h
    rfl
  · simp only [LoopState.publish] at h
    split at h
    · rename_i r hr
      cases h
      exact ⟨r, hr, rfl⟩
    · cases h
  · simp only [LoopState.check] at h
    split at h <;> cases h <;> rfl
  · cases h

/-! ## What one event does to one job -/

theorem takes_callEnv {json : PayloadJson} {node : Node Tx} {job : PayloadJob Tx} {i : Nat}
    {call : Call} :
    Takes (.publish i call : Event Tx) (.publish (callEnv json node job call)) := by
  unfold callEnv
  split
  · exact .publish _
  · exact .publish _

/-- The jobs of the node and the loops go in pairs. -/
structure Paired (s : Builder Tx) : Prop where
  length : s.loops.length = s.node.jobs.length
  block : ∀ (k : Nat) (job : PayloadJob Tx) (loop : JobLoop), s.node.jobs[k]? = some job →
    s.loops[k]? = some loop → loop.cfg.block = job.ctx

/-- The pair at `k` behind an event: the job has just entered its loop, its loop
has taken the turn, or both have been left as they were. -/
inductive Effect (s : Builder Tx) (e : Event Tx) (node : Node Tx) (k : Nat) :
    PayloadJob Tx → JobLoop → Prop
  | entered {cfg : LoopConfig} {now : Instant} {prologue : List (Extension Tx)} {openedAt : Nat}
      (event : e = .beforeJob cfg now prologue) (last : k = s.loops.length) :
      Effect s e node k ⟨cfg.block, Payload.new.extendAll prologue, true, openedAt, []⟩
        (.enter cfg)
  | turned {job job' : PayloadJob Tx} {loop : JobLoop} {own : LoopEvent Tx} {after : LoopState Tx}
      (get : s.node.jobs[k]? = some job) (hloop : s.loops[k]? = some loop)
      (turn : e.turnOf = some k) (takes : Takes e own)
      (handle : (loop.state s.node.publisher job).handle loop.cfg own = some after)
      (ctx_eq : job'.ctx = job.ctx) (job_eq : after.job = job'.state node.publisher) :
      Effect s e node k job' (loop.after after)
  | kept {job job' : PayloadJob Tx} {loop : JobLoop} (get : s.node.jobs[k]? = some job)
      (hloop : s.loops[k]? = some loop) (other : e.turnOf ≠ some k) (ctx_eq : job'.ctx = job.ctx)
      (state_eq : ∀ publisher, job'.state publisher = job.state publisher) :
      Effect s e node k job' loop

section
variable {json : PayloadJson} {s t : Builder Tx} {i k : Nat} {e : Event Tx}
  {found : PayloadJob Tx} {foundLoop : JobLoop}

/-- A turn of the loop at `i`, seen from the pair at `k`. -/
theorem Effect.of_turn {job job' : PayloadJob Tx} {loop : JobLoop} {after : LoopState Tx}
    {own : LoopEvent Tx} {node : Node Tx}
    (get : s.node.jobs[i]? = some job) (hloop : s.loops[i]? = some loop)
    (turn : e.turnOf = some i) (takes : Takes e own)
    (handle : (loop.state s.node.publisher job).handle loop.cfg own = some after)
    (hjobs : node.jobs = s.node.jobs.set i job') (hctx : job'.ctx = job.ctx)
    (hjob : after.job = job'.state node.publisher)
    (hfound : node.jobs[k]? = some found)
    (hfoundLoop : (s.loops.set i (loop.after after))[k]? = some foundLoop) :
    Effect s e node k found foundLoop := by
  rw [hjobs] at hfound
  rcases job_of_set hfound with ⟨rfl, rfl⟩ | ⟨hne, hold⟩
  · rw [List.getElem?_set_self (List.getElem?_eq_some_iff.mp hloop).1] at hfoundLoop
    cases hfoundLoop
    exact .turned get hloop turn takes handle hctx hjob
  · rw [List.getElem?_set_ne fun h => hne h.symm] at hfoundLoop
    refine .kept hold hfoundLoop ?_ rfl fun _ => rfl
    rw [turn]
    exact fun h => hne (Option.some.inj h).symm

/-- A job that enters its loop, seen from the pair at `k`. -/
theorem Effect.of_enter (hs : Paired s) {cfg : LoopConfig} {now : Instant}
    {prologue : List (Extension Tx)} {node : Node Tx} {openedAt : Nat}
    (hjobs : node.jobs =
      s.node.jobs ++ [⟨cfg.block, Payload.new.extendAll prologue, true, openedAt, []⟩])
    (hfound : node.jobs[k]? = some found)
    (hfoundLoop : (s.loops ++ [.enter cfg])[k]? = some foundLoop) :
    Effect s (.beforeJob cfg now prologue) node k found foundLoop := by
  rw [hjobs] at hfound
  rcases Nat.lt_or_ge k s.loops.length with hlt | hge
  · rw [List.getElem?_append_left (hs.length ▸ hlt)] at hfound
    rw [List.getElem?_append_left hlt] at hfoundLoop
    exact .kept hfound hfoundLoop (Option.some_ne_none k).symm rfl fun _ => rfl
  · have hlast : k = s.loops.length := by
      have hlt := (List.getElem?_eq_some_iff.mp hfoundLoop).1
      rw [List.length_append, List.length_singleton] at hlt
      omega
    rw [hlast, hs.length, List.getElem?_concat_length] at hfound
    rw [hlast, List.getElem?_concat_length] at hfoundLoop
    cases hfound
    cases hfoundLoop
    exact .entered rfl hlast

/-- Everything an event can do to a job and its loop. -/
theorem effect_of_handle (hs : Paired s) (h : s.handle json e = some t)
    (get : t.node.jobs[k]? = some found) (hloop : t.loops[k]? = some foundLoop) :
    Effect s e t.node k found foundLoop := by
  cases e with
  | beforeJob cfg now prologue =>
    cases h
    exact .of_enter hs rfl get hloop
  | openScope i delay =>
    obtain ⟨_, _, _, hjob, hown, handle, rfl⟩ := turn_eq_some h
    exact .of_turn hjob hown rfl .openScope handle (Node.set_self hjob).symm rfl
      (job_of_handle handle) get hloop
  | check i =>
    obtain ⟨_, _, _, hjob, hown, handle, rfl⟩ := turn_eq_some h
    exact .of_turn hjob hown rfl .check handle (Node.set_self hjob).symm rfl
      (job_of_handle handle) get hloop
  | rewrite i extensions =>
    simp only [Builder.handle] at h
    obtain ⟨node, hnode, hturn⟩ := Option.bind_eq_some_iff.mp h
    obtain ⟨job, _, _, hjob, hown, handle, rfl⟩ := turn_eq_some hturn
    obtain ⟨job', hjob', hrewrite⟩ := Node.turn_eq_some hnode
    rw [hjob] at hjob'
    cases hjob'
    cases hrewrite
    exact .of_turn hjob hown rfl .rewrite handle rfl rfl (job_of_handle handle) get hloop
  | publish i call =>
    simp only [Builder.handle] at h
    obtain ⟨node, hnode, hturn⟩ := Option.bind_eq_some_iff.mp h
    obtain ⟨job, loop, after, hjob, hown, handle, rfl⟩ := turn_eq_some hturn
    obtain ⟨job', r, hjob', hr, hpublisher, hjobs⟩ := step_eq_some hnode
    rw [hjob] at hjob'
    cases hjob'
    obtain ⟨r', hr', hafter⟩ := job_of_handle handle
    -- the loop and the node have called the step on the same payload and block
    rw [hs.block i job loop hjob hown] at hr'
    have hsame : r = r' := Except.ok.inj (hr.symm.trans hr')
    subst hsame
    refine .of_turn hjob hown rfl takes_callEnv handle hjobs rfl ?_ get hloop
    rw [hafter, hpublisher]
    rfl
  | afterJob i now =>
    simp only [Builder.handle] at h
    obtain ⟨node, hnode, rfl⟩ := Option.map_eq_some_iff.mp h
    obtain ⟨job, hjob, hclosed⟩ := Node.turn_eq_some hnode
    cases hclosed
    rcases job_of_set get with ⟨rfl, rfl⟩ | ⟨_, hold⟩
    · exact .kept hjob hloop (Option.some_ne_none k).symm rfl fun _ => rfl
    · exact .kept hold hloop (Option.some_ne_none k).symm rfl fun _ => rfl
  | transport event =>
    simp only [Builder.handle] at h
    obtain ⟨node, hnode, rfl⟩ := Option.map_eq_some_iff.mp h
    have hjobs : node.jobs = s.node.jobs := by
      cases Node.transition_of_handle hnode with
      | transported => rfl
    rw [hjobs] at get
    exact .kept get hloop (Option.some_ne_none k).symm rfl fun _ => rfl

omit [Encodable2718 Tx] in
theorem Paired.new : Paired (Builder.new : Builder Tx) where
  length := rfl
  block k job loop get := by cases get

theorem length_of_handle (hs : s.loops.length = s.node.jobs.length)
    (h : s.handle json e = some t) :
    s.loops.length ≤ t.loops.length ∧ t.loops.length = t.node.jobs.length := by
  cases e with
  | beforeJob cfg now prologue =>
    cases h
    simp [hs]
  | openScope i delay | check i =>
    obtain ⟨_, _, _, _, _, _, rfl⟩ := turn_eq_some h
    rw [List.length_set]
    exact ⟨Nat.le_refl _, hs⟩
  | rewrite i extensions =>
    simp only [Builder.handle] at h
    obtain ⟨node, hnode, hturn⟩ := Option.bind_eq_some_iff.mp h
    obtain ⟨_, _, _, _, _, _, rfl⟩ := turn_eq_some hturn
    obtain ⟨job, _, hrewrite⟩ := Node.turn_eq_some hnode
    cases hrewrite
    rw [List.length_set, List.length_set]
    exact ⟨Nat.le_refl _, hs⟩
  | publish i call =>
    simp only [Builder.handle] at h
    obtain ⟨node, hnode, hturn⟩ := Option.bind_eq_some_iff.mp h
    obtain ⟨_, _, _, _, _, _, rfl⟩ := turn_eq_some hturn
    obtain ⟨_, _, _, _, _, hjobs⟩ := step_eq_some hnode
    rw [hjobs, List.length_set, List.length_set]
    exact ⟨Nat.le_refl _, hs⟩
  | afterJob i now =>
    simp only [Builder.handle] at h
    obtain ⟨node, hnode, rfl⟩ := Option.map_eq_some_iff.mp h
    obtain ⟨job, _, hclosed⟩ := Node.turn_eq_some hnode
    cases hclosed
    rw [List.length_set]
    exact ⟨Nat.le_refl _, hs⟩
  | transport event =>
    simp only [Builder.handle] at h
    obtain ⟨node, hnode, rfl⟩ := Option.map_eq_some_iff.mp h
    cases Node.transition_of_handle hnode with
    | transported => exact ⟨Nat.le_refl _, hs⟩

theorem Paired.handle (hs : Paired s) (h : s.handle json e = some t) : Paired t where
  length := (length_of_handle hs.length h).2
  block k job loop get hloop := by
    cases effect_of_handle hs h get hloop with
    | entered => rfl
    | turned hjob hown turn takes handle ctx_eq =>
      have hblock := hs.block k _ _ hjob hown
      rw [ctx_eq]
      exact hblock
    | kept hjob hown other ctx_eq =>
      rw [ctx_eq]
      exact hs.block k _ _ hjob hown

theorem paired_of_run {events : List (Event Tx)}
    (h : run (Builder.handle json) Builder.new events = some s) : Paired s :=
  run_invariant (fun _ _ _ hs he => hs.handle he) .new h

omit [Encodable2718 Tx] in
theorem Paired.pair (hs : Paired s) (hk : k < s.loops.length) :
    ∃ job loop, s.node.jobs[k]? = some job ∧ s.loops[k]? = some loop :=
  ⟨_, _, List.getElem?_eq_getElem (hs.length ▸ hk), List.getElem?_eq_getElem hk⟩

/-- A job is never lost. -/
theorem effect_of_loop (hs : Paired s) (h : s.handle json e = some t) (hk : k < s.loops.length) :
    ∃ found foundLoop, t.node.jobs[k]? = some found ∧ t.loops[k]? = some foundLoop ∧
      Effect s e t.node k found foundLoop := by
  have hle := (length_of_handle hs.length h).1
  obtain ⟨found, foundLoop, get, hloop⟩ := (hs.handle h).pair (Nat.lt_of_lt_of_le hk hle)
  exact ⟨found, foundLoop, get, hloop, effect_of_handle hs h get hloop⟩

end

/-! ## Invariants of a loop on its own -/

/-- What a loop keeps, whatever the shared step does for other jobs. -/
structure LoopInvariant (P : LoopConfig → LoopState Tx → Prop) : Prop where
  enter : ∀ cfg publisher prologue, P cfg (LoopState.enter publisher prologue)
  publisher : ∀ {cfg s} (publisher : PublishFlashblock), P cfg s →
    errors s.job.publisher ≤ errors publisher → P cfg { s with job := { s.job with publisher } }
  handle : ∀ {cfg s e t}, P cfg s → s.handle cfg e = some t → P cfg t

/-- Every job is in a loop that keeps `P`. -/
structure InLoops (P : LoopConfig → LoopState Tx → Prop) (s : Builder Tx) : Prop where
  paired : Paired s
  keeps : ∀ (k : Nat) (job : PayloadJob Tx) (loop : JobLoop), s.node.jobs[k]? = some job →
    s.loops[k]? = some loop → P loop.cfg (loop.state s.node.publisher job)

section
variable {P : LoopConfig → LoopState Tx → Prop} {json : PayloadJson} {s t : Builder Tx}

omit [Encodable2718 Tx] in
theorem state_after {loop : JobLoop} {publisher : PublishFlashblock} {job : PayloadJob Tx}
    {after : LoopState Tx} (h : after.job = job.state publisher) :
    (loop.after after).state publisher job = after := by
  rw [JobLoop.state, ← h]
  rfl

theorem InLoops.handle (hP : LoopInvariant P) (hs : InLoops P s) {e : Event Tx}
    (h : s.handle json e = some t) : InLoops P t := by
  refine ⟨hs.paired.handle h, fun k job loop get hloop => ?_⟩
  cases effect_of_handle hs.paired h get hloop with
  | entered => exact hP.enter _ t.node.publisher _
  | turned hjob hown turn takes handle ctx_eq job_eq =>
    have hkeeps := hP.handle (hs.keeps k _ _ hjob hown) handle
    rw [state_after job_eq]
    exact hkeeps
  | kept hjob hown other ctx_eq state_eq =>
    have hkeeps := hP.publisher t.node.publisher (hs.keeps k _ _ hjob hown)
      (errors_le_of_handle h)
    rw [JobLoop.state, state_eq]
    exact hkeeps

/-- **What each loop keeps on its own, all loops keep together.** -/
theorem inLoops_of_run (hP : LoopInvariant P) {events : List (Event Tx)}
    (h : run (Builder.handle json) Builder.new events = some s) : InLoops P s := by
  have hnew : InLoops P (Builder.new : Builder Tx) := ⟨.new, fun k job loop get => by cases get⟩
  exact run_invariant (fun _ _ _ hs he => hs.handle hP he) hnew h

end

theorem counted_invariant : LoopInvariant (@Counted Tx _) where
  enter := counted_enter
  publisher publisher hs _ := by
    obtain ⟨log, hlog⟩ := hs.refines
    exact ⟨⟨log, hlog.unpublished publisher⟩, hs.bound, hs.room, hs.full⟩
  handle hs h := hs.transition (LoopState.transition_of_handle h)

end UnichainBuilder.BlockProduction

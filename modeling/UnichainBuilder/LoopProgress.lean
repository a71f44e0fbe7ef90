import UnichainBuilder.OverlappingJobs
import UnichainBuilder.PanicFreedom

/-! # Progress of the loops

A job is never stuck: whatever the other jobs and the sink have done, the turn
that its loop is ready for does not panic. And it does not go on for ever: a
scope beyond the target has cost a publish error that is counted. -/
namespace UnichainBuilder.LoopProgress
open UnichainBuilder.Lib.RustStd UnichainBuilder.Lib.Runs UnichainBuilder.Block
open UnichainBuilder.State UnichainBuilder.Checkpoints UnichainBuilder.Publish UnichainBuilder.Job
open UnichainBuilder.Limits UnichainBuilder.Stop UnichainBuilder.PublishedLog
open UnichainBuilder.FlashblocksLoop UnichainBuilder.FlashblockCount UnichainBuilder.PanicFreedom
open UnichainBuilder.Service UnichainBuilder.BlockProduction UnichainBuilder.OverlappingJobs
open UnichainBuilder.Shutdown (errors_of_untimed)
open UnichainBuilder.WebSocketSink (Sink)

/-- The interval divides, the milliseconds of the deadline fit a `u64`, and the
counter goes beyond the target. -/
structure Workable (cfg : LoopConfig) : Prop where
  interval : Divides cfg.interval
  deadline : cfg.deadline.asMillis ≤ u64Max
  target : targetCount cfg < u64Max

/-- The turns that a loop is ready for. What is built has a withdrawals root. -/
inductive Due {Tx : Type} : Phase → LoopEvent Tx → Prop
  | openScope {delay : Duration} : Due .opening (.openScope delay)
  | rewrite {extensions : List (Extension Tx)} : Due .building (.rewrite extensions)
  | publish {env : StepEnv}
      (root : ∀ sealedBlock, env.buildPayload = .ok sealedBlock →
        ∃ withdrawalsRoot, sealedBlock.withdrawalsRoot = some withdrawalsRoot) :
      Due .building (.publish env)
  | check : Due .checking .check

variable {Tx : Type} [Encodable2718 Tx] {cfg : LoopConfig} {s t : LoopState Tx}

/-! ## One loop -/

theorem exists_next {n : FlashblockNumber} (h : n.current.toNat < u64Max) :
    ∃ m, n.next = .ok m := by
  obtain ⟨c, hc⟩ := exists_toNat_of_le (Nat.succ_le_of_lt h)
  have hadd : add n.current 1 = .ok c := add_eq_ok.mpr hc
  unfold FlashblockNumber.next
  split
  · exact ⟨_, rfl⟩
  · rename_i p hp
    rw [hadd] at hp
    cases hp

/-- The call returns, whether the sink takes the message or not. -/
theorem step_returns {self : PublishFlashblock} {payload : Payload Tx} {ctx : BlockContext}
    {env : StepEnv}
    (root : ∀ sealedBlock, env.buildPayload = .ok sealedBlock →
      ∃ withdrawalsRoot, sealedBlock.withdrawalsRoot = some withdrawalsRoot)
    (hnext : payload.context.current.toNat < u64Max) :
    ∃ r, self.step payload ctx env = .ok r := by
  cases hbuild : env.buildPayload with
  | error e =>
    rw [PublishFlashblock.step, hbuild]
    exact ⟨_, rfl⟩
  | ok sealedBlock =>
    obtain ⟨withdrawalsRoot, hroot⟩ := root sealedBlock hbuild
    obtain ⟨next, hnext⟩ := exists_next hnext
    cases hpublish : env.publish with
    | error e =>
      simp only [PublishFlashblock.step, hbuild, hroot, hpublish, expect, bind, Except.bind]
      exact ⟨_, rfl⟩
    | ok size =>
      simp only [PublishFlashblock.step, hbuild, hroot, hpublish, hnext, expect, bind, Except.bind]
      exact ⟨_, rfl⟩

omit [Encodable2718 Tx] in
theorem Workable.openScope (hcfg : Workable cfg) (delay : Duration) :
    ∃ t, s.openScope cfg delay = some t := by
  have hremaining := (FlashblockLimits.remainingMs_le cfg.block (s.clock + delay) cfg.deadline).trans
    hcfg.deadline
  obtain ⟨limits, hcreate⟩ := create_returns_iff.mpr ⟨hcfg.interval, hremaining⟩
  exact ⟨_, by rw [LoopState.openScope, LoopConfig.limits, hcreate]⟩

omit [Encodable2718 Tx] in
theorem Workable.check (hcfg : Workable cfg) : ∃ t, s.check cfg = some t := by
  obtain ⟨flow, hflow⟩ := step_returns_iff.mpr ⟨hcfg.interval, hcfg.deadline⟩
  cases flow with
  | ok payload => exact ⟨_, by rw [LoopState.check, LoopConfig.limits, hflow]⟩
  | brk payload => exact ⟨_, by rw [LoopState.check, LoopConfig.limits, hflow]⟩

theorem Workable.room (hcfg : Workable cfg) (hs : Counted cfg s) (hphase : s.phase = .building) :
    s.job.payload.context.current.toNat < u64Max := by
  obtain ⟨log, hlog⟩ := hs.refines
  have htarget := hcfg.target
  have hone : 1 < u64Max := by decide
  rw [hlog.counter]
  rcases hs.room (.inr hphase) with hnone | hroom <;> omega

theorem Workable.publish (hcfg : Workable cfg) (hs : Counted cfg s) (hphase : s.phase = .building)
    {env : StepEnv}
    (root : ∀ sealedBlock, env.buildPayload = .ok sealedBlock →
      ∃ withdrawalsRoot, sealedBlock.withdrawalsRoot = some withdrawalsRoot) :
    ∃ t, s.publish cfg env = some t := by
  have hstep : ∃ r, s.job.publisher.step s.job.payload cfg.block env = .ok r :=
    step_returns root (hcfg.room hs hphase)
  obtain ⟨r, hr⟩ := hstep
  simp only [LoopState.publish, hr]
  exact ⟨_, rfl⟩

/-- What is due does not panic. -/
theorem returns_of_due (hcfg : Workable cfg) (hs : Counted cfg s) {e : LoopEvent Tx}
    (due : Due s.phase e) : ∃ t, s.handle cfg e = some t := by
  unfold LoopState.handle
  cases hphase : s.phase with
  | opening =>
    rw [hphase] at due
    cases due with
    | openScope => exact hcfg.openScope _
  | building =>
    rw [hphase] at due
    cases due with
    | rewrite => exact ⟨_, rfl⟩
    | publish root => exact hcfg.publish hs hphase root
  | checking =>
    rw [hphase] at due
    cases due with
    | check => exact hcfg.check
  | leftByPublish | leftByMax =>
    rw [hphase] at due
    cases due

/-! ## All loops -/

section
variable {json : PayloadJson} {s : Builder Tx} {events : List (BlockProduction.Event Tx)}
  {i : Nat} {job : PayloadJob Tx} {loop : JobLoop}

theorem publish_returns {sink : Sink Utf8Bytes} (h : sink.dropped = false)
    (serialized : Except IoError Utf8Bytes) :
    ∃ sink', sink.handle (.publish serialized) = some sink' := by
  cases serialized with
  | error e => exact ⟨sink, by simp [Sink.handle, h]⟩
  | ok text =>
    simp only [Sink.handle, h, Bool.false_eq_true, if_false]
    split
    · exact ⟨_, rfl⟩
    · exact ⟨_, rfl⟩

theorem buildPayload_callEnv {node : Node Tx} {call : Call} :
    (callEnv json node job call).buildPayload = call.buildPayload := by
  unfold callEnv
  split <;> rfl

/-- A call that returns is a turn of the node. -/
theorem step_handle_returns {node : Node Tx} {call : Call} {r : StepResult Tx}
    (hsink : node.sink.dropped = false) (get : node.jobs[i]? = some job)
    (hrunning : job.running = true)
    (hr : node.publisher.step job.payload job.ctx (callEnv json node job call) = .ok r) :
    ∃ node', node.handle json (.step i call) = some node' := by
  simp only [Node.handle, Node.turn, get, hrunning, if_true, Node.step]
  unfold callEnv at hr
  cases hmessage : flashblock node.publisher job call with
  | some message =>
    obtain ⟨sink', hpublish⟩ := publish_returns hsink (json.toString message)
    simp only [hmessage] at hr
    simp only [hpublish, Option.bind_some, Node.call, hr]
    exact ⟨_, rfl⟩
  | none =>
    simp only [hmessage] at hr
    simp only [Node.call, hr]
    exact ⟨_, rfl⟩

theorem turn_returns {e : PayloadJob Tx → LoopEvent Tx} {node : Node Tx} {after : LoopState Tx}
    (get : s.node.jobs[i]? = some job) (hloop : s.loops[i]? = some loop)
    (hrunning : job.running = true)
    (handle : (loop.state s.node.publisher job).handle loop.cfg (e job) = some after) :
    ∃ t, s.turn i e node = some t := by
  simp only [Builder.turn, get, hloop, hrunning, if_true, handle]
  exact ⟨_, rfl⟩

/-- **No job is ever stuck.** Whatever jobs have begun, what was rejected and who
has come and gone: as long as the sink is there, a running job whose interval
and deadline are workable can take every turn that its loop is ready for. -/
theorem no_turn_panics (h : run (Builder.handle json) Builder.new events = some s)
    (hsink : s.node.sink.dropped = false) (get : s.node.jobs[i]? = some job)
    (hrunning : job.running = true) (hloop : s.loops[i]? = some loop) (hcfg : Workable loop.cfg)
    {e : BlockProduction.Event Tx} {own : LoopEvent Tx} (turn : e.turnOf = some i)
    (takes : Takes e own) (due : Due loop.phase own) : ∃ t, s.handle json e = some t := by
  have hinLoops := inLoops_of_run counted_invariant h
  have hs : Counted loop.cfg (loop.state s.node.publisher job) := hinLoops.keeps i job loop get hloop
  have hblock := hinLoops.paired.block i job loop get hloop
  cases takes with
  | openScope | check =>
    cases turn
    obtain ⟨after, handle⟩ := returns_of_due hcfg hs due
    exact turn_returns get hloop hrunning handle
  | rewrite =>
    cases turn
    obtain ⟨after, handle⟩ := returns_of_due hcfg hs due
    simp only [Builder.handle, Node.handle, Node.turn, get, hrunning, if_true, Option.bind_some]
    exact turn_returns get hloop hrunning handle
  | @publish _ call published =>
    cases turn
    have hdue : Due loop.phase (LoopEvent.publish (callEnv json s.node job call) : LoopEvent Tx) := by
      generalize loop.phase = phase at due
      cases due with
      | publish root =>
        refine .publish fun sealedBlock hbuild => ?_
        rw [buildPayload_callEnv] at hbuild
        exact root sealedBlock hbuild
    obtain ⟨after, handle⟩ := returns_of_due hcfg hs hdue
    obtain ⟨r, hr, -⟩ := job_of_handle handle
    rw [hblock] at hr
    obtain ⟨node, hnode⟩ := step_handle_returns hsink get hrunning hr
    simp only [Builder.handle, hnode, Option.bind_some]
    exact turn_returns get hloop hrunning handle

/-- The second of two overlapping jobs goes on when the first has ended. -/
theorem no_turn_panics_two_jobs : ∃ s t : Builder Bytes,
    run (Builder.handle twoJobsJson) Builder.new twoJobs = some s ∧
      s.handle twoJobsJson (.check 1) = some t := by
  have hrun : ∃ s : Builder Bytes,
      run (Builder.handle twoJobsJson) Builder.new twoJobs = some s ∧
        (s.loops[1]?.map (fun loop => (loop.cfg, loop.phase)),
          s.node.jobs[1]?.map PayloadJob.running, s.node.sink.dropped) =
        (some (halfSecond 2, .checking), some true, false) :=
    exists_run _ rfl fun s _ hv => hv
  obtain ⟨s, hs, hv⟩ := hrun
  simp only [Prod.mk.injEq] at hv
  obtain ⟨hloops, hjobs, hsink⟩ := hv
  obtain ⟨loop, hloop, hat⟩ := Option.map_eq_some_iff.mp hloops
  obtain ⟨job, get, hrunning⟩ := Option.map_eq_some_iff.mp hjobs
  obtain ⟨hcfg, hphase⟩ := Prod.mk.inj hat
  have hworkable : Workable loop.cfg := by
    rw [hcfg]
    exact ⟨by decide, by decide, by decide⟩
  have hdue : Due loop.phase (LoopEvent.check : LoopEvent Bytes) := by
    rw [hphase]
    exact .check
  obtain ⟨t, ht⟩ := no_turn_panics hs hsink get hrunning hloop hworkable rfl .check hdue
  exact ⟨s, t, hs, ht⟩

end

/-! ## The scopes of a loop -/

/-- Every scope but the last has been left by an accepted message or by an error. -/
structure Iterated (cfg : LoopConfig) (s : LoopState Tx) : Prop where
  counted : Counted cfg s
  building : s.phase = .building →
    s.scopes.length ≤ s.job.accepted.length + errors s.job.publisher + 1
  between : s.phase = .opening ∨ s.phase = .checking →
    s.scopes.length ≤ s.job.accepted.length + errors s.job.publisher
  bound : s.scopes.length ≤ max 1 (targetCount cfg) + errors s.job.publisher

/-- A call after which the loop goes on has its message accepted or counts an error. -/
theorem counts_of_step {self : PublishFlashblock} {payload : Payload Tx} {ctx : BlockContext}
    {env : StepEnv} {r : StepResult Tx} (h : self.step payload ctx env = .ok r) :
    match r.flow with
    | .ok _ => r.sent.toList.length + errors r.publisher = errors self + 1
    | .brk _ => errors r.publisher = errors self := by
  cases PublishFlashblock.returns_of_step h with
  | buildFailed build => rfl
  | rejected build root publish => exact Nat.zero_add _
  | accepted build root publish next_eq =>
    have herrors := errors_of_untimed (self.times.untimed_onPublishedBlock self.metrics env.now)
    change 1 + Timing.Metrics.websocketPublishErrorsTotal _ = _
    rw [Nat.add_comm]
    exact congrArg (· + 1) herrors

theorem Iterated.publish {env : StepEnv} (hs : Iterated cfg s) (hphase : s.phase = .building)
    (h : s.publish cfg env = some t) : Iterated cfg t := by
  have hcounted := hs.counted.transition (LoopState.transition_of_publish hphase h)
  have hbuilding := hs.building hphase
  have hbound := hs.bound
  unfold LoopState.publish at h
  split at h
  · rename_i r hr
    cases h
    have hcounts := counts_of_step hr
    have hsent : r.sent.toList.length ≤ 1 := Option.length_toList_le
    cases hflow : r.flow with
    | ok payload =>
      rw [hflow] at hcounted hcounts
      dsimp only at hcounts
      refine ⟨hcounted, fun h => by simp at h, fun _ => ?_, ?_⟩
      · rw [List.length_append]
        dsimp only
        omega
      · dsimp only
        omega
    | brk payload =>
      rw [hflow] at hcounted hcounts
      refine ⟨hcounted, fun h => by simp at h, fun h => by simp at h, ?_⟩
      rw [hcounts]
      exact hbound
  · cases h

theorem Iterated.handle {e : LoopEvent Tx} (hs : Iterated cfg s) (h : s.handle cfg e = some t) :
    Iterated cfg t := by
  have hcounted := hs.counted.transition (LoopState.transition_of_handle h)
  unfold LoopState.handle at h
  split at h
  · rename_i hphase
    have hroom := hs.counted.room (.inl hphase)
    have hbetween := hs.between (.inl hphase)
    unfold LoopState.openScope at h
    dsimp only at h
    split at h
    · cases h
      refine ⟨hcounted, fun _ => ?_, fun h => by simp at h, ?_⟩
      · dsimp only
        rw [List.length_append, List.length_singleton]
        omega
      · dsimp only
        rw [List.length_append, List.length_singleton]
        omega
    · cases h
  · cases h
    exact ⟨hcounted, hs.building, hs.between, hs.bound⟩
  · rename_i hphase
    exact hs.publish hphase h
  · rename_i hphase
    have hbetween := hs.between (.inr hphase)
    unfold LoopState.check at h
    split at h
    · cases h
      exact ⟨hcounted, fun h => by simp at h, fun _ => hbetween, hs.bound⟩
    · cases h
      exact ⟨hcounted, fun h => by simp at h, fun h => by simp at h, hs.bound⟩
    · cases h
  · cases h

theorem iterated_enter (cfg : LoopConfig) (publisher : PublishFlashblock)
    (prologue : List (Extension Tx)) : Iterated cfg (LoopState.enter publisher prologue) :=
  ⟨counted_enter cfg publisher prologue, fun _ => Nat.zero_le _, fun _ => Nat.zero_le _,
    Nat.zero_le _⟩

/-- The other jobs can only add to the errors. -/
theorem Iterated.publisher (hs : Iterated cfg s) (publisher : PublishFlashblock)
    (hle : errors s.job.publisher ≤ errors publisher) :
    Iterated cfg { s with job := { s.job with publisher } } :=
  ⟨counted_invariant.publisher publisher hs.counted hle,
    fun h => (hs.building h).trans (Nat.add_le_add_right (Nat.add_le_add_left hle _) 1),
    fun h => (hs.between h).trans (Nat.add_le_add_left hle _),
    hs.bound.trans (Nat.add_le_add_left hle _)⟩

theorem iterated_invariant : LoopInvariant (@Iterated Tx _) where
  enter := iterated_enter
  publisher publisher hs hle := hs.publisher publisher hle
  handle hs h := hs.handle h

/-- **No loop goes on for ever.** However the jobs overlap: a job has opened no
more scopes than flashblocks fit its deadline, one if none do, and one more for
every publish error that has been counted. -/
theorem scopes_bounded {json : PayloadJson} {s : Builder Tx}
    {events : List (BlockProduction.Event Tx)} {i : Nat} {loop : JobLoop}
    (h : run (Builder.handle json) Builder.new events = some s) (hloop : s.loops[i]? = some loop) :
    loop.scopes.length ≤
      max 1 (targetCount loop.cfg) + s.node.publisher.metrics.websocketPublishErrorsTotal := by
  have hinLoops := inLoops_of_run iterated_invariant h
  obtain ⟨job, _, get, hloop'⟩ := hinLoops.paired.pair (List.getElem?_eq_some_iff.mp hloop).1
  rw [hloop] at hloop'
  cases hloop'
  have hbound := (hinLoops.keeps i job loop get hloop).bound
  exact hbound

theorem scopes_bounded_two_jobs : ∃ (s : Builder Bytes) (loop : JobLoop),
    run (Builder.handle twoJobsJson) Builder.new twoJobs = some s ∧ s.loops[0]? = some loop ∧
      loop.scopes.length ≤ 2 + s.node.publisher.metrics.websocketPublishErrorsTotal := by
  obtain ⟨s, _, loop, hs, -, hloop, -, -, htarget, -⟩ := twoJobs_run
  have hbound := scopes_bounded hs hloop
  rw [htarget] at hbound
  exact ⟨s, loop, hs, hloop, hbound⟩

end UnichainBuilder.LoopProgress

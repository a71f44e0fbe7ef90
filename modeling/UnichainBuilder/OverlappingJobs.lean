import UnichainBuilder.BlockProduction

/-! # Overlapping jobs

The jobs share the step: its slot for the base, its times and its metrics. What
a job goes through is still a run of its own loop, from the step as a node
without other jobs has it. The bases of its messages are all that the others
can change. -/
namespace UnichainBuilder.OverlappingJobs
open UnichainBuilder.Lib.RustStd UnichainBuilder.Lib.Runs UnichainBuilder.Block
open UnichainBuilder.Checkpoints UnichainBuilder.Publish UnichainBuilder.Job
open UnichainBuilder.FlashblocksLoop UnichainBuilder.FlashblockCount UnichainBuilder.Service
open UnichainBuilder.ServiceChannel UnichainBuilder.BlockProduction

def withoutBase (m : OpFlashblockPayload) : OpFlashblockPayload := { m with base := none }

/-- The same but for the step and for the bases. -/
structure Alike {Tx : Type} (s t : LoopState Tx) : Prop where
  phase : s.phase = t.phase
  clock : s.clock = t.clock
  scopes : s.scopes = t.scopes
  payload : s.job.payload = t.job.payload
  accepted : s.job.accepted.map withoutBase = t.job.accepted.map withoutBase

variable {Tx : Type} {cfg : LoopConfig} {s t : LoopState Tx}

theorem Alike.publisher (h : Alike s t) (publisher : PublishFlashblock) :
    Alike s { t with job := { t.job with publisher } } :=
  ⟨h.phase, h.clock, h.scopes, h.payload, h.accepted⟩

variable [Encodable2718 Tx]

/-- What a call returns to its job does not depend on the step's own state,
the base of the message excepted. -/
theorem step_alike {self : PublishFlashblock} (other : PublishFlashblock) {payload : Payload Tx}
    {ctx : BlockContext} {env : StepEnv} {r : StepResult Tx}
    (h : self.step payload ctx env = .ok r) :
    ∃ r', other.step payload ctx env = .ok r' ∧ r'.flow = r.flow ∧
      r'.sent.map withoutBase = r.sent.map withoutBase := by
  cases PublishFlashblock.returns_of_step h with
  | buildFailed build =>
    have hstep : other.step payload ctx env = .ok ⟨other, .brk payload, none⟩ := by
      rw [PublishFlashblock.step, build]
      rfl
    exact ⟨_, hstep, rfl, rfl⟩
  | rejected build root publish =>
    simp only [PublishFlashblock.step, build, root, publish, expect, bind, Except.bind]
    exact ⟨_, rfl, rfl, rfl⟩
  | accepted build root publish next_eq =>
    simp only [PublishFlashblock.step, build, root, publish, next_eq, expect, bind, Except.bind]
    exact ⟨_, rfl, rfl, rfl⟩

omit [Encodable2718 Tx] in
theorem Alike.openScope {t' : LoopState Tx} {delay : Duration} (hst : Alike s t)
    (h : t.openScope cfg delay = some t') : ∃ s', s.openScope cfg delay = some s' ∧ Alike s' t' := by
  simp only [LoopState.openScope, hst.clock, hst.payload] at h ⊢
  split at h
  · rename_i limits hcreate
    cases h
    refine ⟨_, rfl, rfl, rfl, ?_, hst.payload, hst.accepted⟩
    rw [hst.scopes]
  · cases h

omit [Encodable2718 Tx] in
theorem Alike.check {t' : LoopState Tx} (hst : Alike s t) (h : t.check cfg = some t') :
    ∃ s', s.check cfg = some s' ∧ Alike s' t' := by
  simp only [LoopState.check, hst.payload] at h ⊢
  split at h
  · cases h
    exact ⟨_, rfl, rfl, hst.clock, hst.scopes, hst.payload, hst.accepted⟩
  · cases h
    exact ⟨_, rfl, rfl, hst.clock, hst.scopes, hst.payload, hst.accepted⟩
  · cases h

theorem Alike.publish {t' : LoopState Tx} {env : StepEnv} (hst : Alike s t)
    (h : t.publish cfg env = some t') : ∃ s', s.publish cfg env = some s' ∧ Alike s' t' := by
  simp only [LoopState.publish, hst.payload] at h ⊢
  split at h
  · rename_i r hr
    cases h
    obtain ⟨r', hr', hflow, hsent⟩ := step_alike s.job.publisher hr
    rw [hr']
    refine ⟨_, rfl, ?_, hst.clock, hst.scopes, congrArg ControlFlow.payload hflow, ?_⟩
    · rw [hflow]
    · have hlist : r'.sent.toList.map withoutBase = r.sent.toList.map withoutBase := by
        rw [← Option.toList_map, ← Option.toList_map, hsent]
      rw [List.map_append, List.map_append, hst.accepted, hlist]
  · cases h

/-- Loops that are alike answer every event alike. -/
theorem Alike.handle {t' : LoopState Tx} {e : LoopEvent Tx} (hst : Alike s t)
    (h : t.handle cfg e = some t') : ∃ s', s.handle cfg e = some s' ∧ Alike s' t' := by
  unfold LoopState.handle at h ⊢
  rw [hst.phase]
  split at h
  · exact hst.openScope h
  · cases h
    refine ⟨_, rfl, rfl, hst.clock, hst.scopes, ?_, hst.accepted⟩
    exact congrArg (Payload.rewrite · _) hst.payload
  · exact hst.publish h
  · exact hst.check h
  · cases h

section
variable {json : PayloadJson} {s : Builder Tx} {events : List (BlockProduction.Event Tx)}
  {i : Nat} {job : PayloadJob Tx} {loop : JobLoop}

/-- The job at `i` is where its loop on its own is. -/
def Tracks (cfg : LoopConfig) (i : Nat) (s : Builder Tx) (own : LoopState Tx) : Prop :=
  Paired s ∧ ∃ job loop, s.node.jobs[i]? = some job ∧ s.loops[i]? = some loop ∧ loop.cfg = cfg ∧
    Alike own (loop.state s.node.publisher job)

theorem Tracks.handle {s t : Builder Tx} {e : BlockProduction.Event Tx} {own : LoopState Tx}
    (hs : Tracks cfg i s own) (h : s.handle json e = some t) :
    (e.turnOf = some i ∧
        ∃ o own', Takes e o ∧ own.handle cfg o = some own' ∧ Tracks cfg i t own') ∨
      (e.turnOf ≠ some i ∧ Tracks cfg i t own) := by
  obtain ⟨hpaired, job, loop, get, hloop, rfl, halike⟩ := hs
  obtain ⟨job', loop', get', hloop', heffect⟩ :=
    effect_of_loop hpaired h (List.getElem?_eq_some_iff.mp hloop).1
  have hpaired' := hpaired.handle h
  cases heffect with
  | entered event last =>
    subst last
    rw [List.getElem?_length] at hloop
    cases hloop
  | turned hjob hown turn takes handle ctx_eq job_eq =>
    rw [get] at hjob
    rw [hloop] at hown
    cases hjob
    cases hown
    obtain ⟨own', hown', halike'⟩ := halike.handle handle
    rw [← state_after job_eq] at halike'
    exact .inl ⟨turn, _, own', takes, hown', hpaired', _, _, get', hloop', rfl, halike'⟩
  | kept hjob hown other ctx_eq state_eq =>
    rw [get] at hjob
    rw [hloop] at hown
    cases hjob
    cases hown
    refine .inr ⟨other, hpaired', _, _, get', hloop', rfl, ?_⟩
    have hkept := halike.publisher t.node.publisher
    rw [JobLoop.state, state_eq]
    exact hkept

/-- The run of the whole is to a job the run of its own loop. -/
theorem Tracks.of_run {s t : Builder Tx} {own : LoopState Tx}
    {events : List (BlockProduction.Event Tx)} (hs : Tracks cfg i s own)
    (h : run (Builder.handle json) s events = some t) :
    ∃ alone own', List.Forall₂ Takes (events.filter fun e => e.turnOf = some i) alone ∧
      run (LoopState.handle cfg) own alone = some own' ∧ Tracks cfg i t own' := by
  refine run_component (fun s own e t hs he hmine => ?_) (fun s own e t hs he hother => ?_) hs h
  · rcases hs.handle he with ⟨_, hturn⟩ | ⟨hne, _⟩
    · exact hturn
    · exact absurd (of_decide_eq_true hmine) hne
  · rcases hs.handle he with ⟨hturn, _⟩ | ⟨_, hkept⟩
    · exact absurd hturn (of_decide_eq_false hother)
    · exact hkept

/-- **Each job runs as it would alone.** However the jobs overlap: from its own
`before_job` on, the turns of a job are a run of its loop with a step that no
other job has called, and at its end this loop is where the job is. It has the
same payload, phase and scopes, and its messages have been accepted in the same
order; they differ in nothing but the base. -/
theorem runs_as_alone (h : run (Builder.handle json) Builder.new events = some s)
    (get : s.node.jobs[i]? = some job) (hloop : s.loops[i]? = some loop) :
    ∃ before now prologue after u alone own,
      events = before ++ .beforeJob loop.cfg now prologue :: after ∧
      run (Builder.handle json) Builder.new before = some u ∧ u.loops.length = i ∧
      List.Forall₂ Takes (after.filter fun e => e.turnOf = some i) alone ∧
      run (LoopState.handle loop.cfg)
        (LoopState.enter (({} : PublishFlashblock).beforeJob loop.cfg.block now) prologue) alone =
          some own ∧
      Alike own (loop.state s.node.publisher job) := by
  have hlt : i < s.loops.length := (List.getElem?_eq_some_iff.mp hloop).1
  obtain ⟨before, e, after, u, v, hevents, hbefore, hu, he, hv, hafter⟩ :=
    run_enters (P := fun s : Builder Tx => i < s.loops.length)
      (s := Builder.new) (Nat.not_lt_zero i) hlt h
  have hpaired := paired_of_run hbefore
  have hpaired' := hpaired.handle he
  obtain ⟨job', loop', get', hloop'⟩ := hpaired'.pair hv
  cases effect_of_handle hpaired he get' hloop' with
  | turned _ hown | kept _ hown => exact absurd (List.getElem?_eq_some_iff.mp hown).1 hu
  | @entered cfg now prologue openedAt event last =>
    have henter : Tracks cfg i v
        (LoopState.enter (({} : PublishFlashblock).beforeJob cfg.block now) prologue) :=
      ⟨hpaired', _, _, get', hloop', rfl, rfl, rfl, rfl, rfl, rfl⟩
    obtain ⟨alone, own, htakes, hown, -, job'', loop'', get'', hloop'', rfl, halike⟩ :=
      henter.of_run hafter
    rw [get] at get''
    rw [hloop] at hloop''
    cases get''
    cases hloop''
    rw [event] at hevents
    exact ⟨before, now, prologue, after, u, alone, own, hevents, hbefore, last.symm, htakes, hown,
      halike⟩

/-! Two jobs at once, the first of which the counter ends. A peer reads along. -/

def halfSecond (payloadId : PayloadId) : LoopConfig :=
  { twoIntervals with block := { twoIntervals.block with payloadId } }

def twoJobs : List (BlockProduction.Event Bytes) :=
  [.transport .accept, .transport (.handshake true),
    .beforeJob (halfSecond 1) ⟨0⟩ [.apply (.transaction [1]) 0 0],
    .openScope 0 ⟨0⟩, .publish 0 .building, .check 0,
    .beforeJob (halfSecond 2) ⟨1⟩ [.apply (.transaction [2]) 0 0],
    .openScope 0 ⟨0⟩, .openScope 1 ⟨0⟩, .rewrite 0 [.apply (.bundle [[3], [4]]) 0 0],
    .publish 1 .building, .publish 0 .building, .check 0,
    .transport (.recv 0), .transport (.sent 0 true), .transport (.recv 0),
    .transport (.sent 0 true), .transport (.recv 0), .transport (.sent 0 true)]

def twoJobsMessages : List OpFlashblockPayload :=
  let base : OpFlashblockPayloadBase := { (default : OpFlashblockPayloadBase) with timestamp := 2 }
  [flashblockOf 1 0 [[1]] (some base), flashblockOf 2 0 [[2]] (some base),
    flashblockOf 1 1 [[3], [4]] none]

def twoJobsJson : PayloadJson := .known twoJobsMessages (by decide +kernel)

theorem twoJobs_run : ∃ s : Builder Bytes, ∃ job loop,
    run (Builder.handle twoJobsJson) Builder.new twoJobs = some s ∧
      s.node.jobs[0]? = some job ∧ s.loops[0]? = some loop ∧ s.node.ids = [1, 2] ∧
      loop.phase = .leftByMax ∧ targetCount loop.cfg = 2 ∧
      job.payload.transactions = [[1], [3], [4]] := by
  have hrun : ∃ s : Builder Bytes,
      run (Builder.handle twoJobsJson) Builder.new twoJobs = some s ∧
        (s.loops.map (fun loop => (loop.phase, targetCount loop.cfg)),
          s.node.jobs.map (fun job => job.payload.transactions), s.node.ids) =
        ([(.leftByMax, 2), (.checking, 2)], [[[1], [3], [4]], [[2]]], [1, 2]) :=
    exists_run _ (by decide +kernel) fun s _ hv => hv
  obtain ⟨s, hs, hv⟩ := hrun
  simp only [Prod.mk.injEq] at hv
  obtain ⟨hloops, hjobs, hids⟩ := hv
  obtain ⟨loop, _, hloop, hfirst, -⟩ := List.map_eq_cons_iff.mp hloops
  obtain ⟨job, _, hjob, hpayload, -⟩ := List.map_eq_cons_iff.mp hjobs
  simp only [Prod.mk.injEq] at hfirst
  exact ⟨s, job, loop, hs, by rw [hjob]; rfl, by rw [hloop]; rfl, hids, hfirst.1, hfirst.2,
    hpayload⟩

theorem runs_as_alone_two_jobs :
    ∃ (cfg : LoopConfig) (now : Instant) (prologue : List (Extension Bytes))
      (alone : List (LoopEvent Bytes)) (own : LoopState Bytes),
      run (LoopState.handle cfg)
        (LoopState.enter (({} : PublishFlashblock).beforeJob cfg.block now) prologue) alone =
          some own ∧
      own.phase = .leftByMax ∧ own.job.payload.transactions = [[1], [3], [4]] := by
  obtain ⟨s, job, loop, hs, get, hloop, -, hleft, -, hpayload⟩ := twoJobs_run
  obtain ⟨_, now, prologue, _, _, alone, own, _, _, _, _, hown, halike⟩ :=
    runs_as_alone hs get hloop
  refine ⟨loop.cfg, now, prologue, alone, own, hown, halike.phase.trans hleft, ?_⟩
  have htransactions := congrArg Payload.transactions halike.payload
  exact htransactions.trans hpayload

end

end UnichainBuilder.OverlappingJobs

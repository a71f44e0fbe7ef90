import UnichainBuilder.Lib.Past
import UnichainBuilder.BlockBase

/-! # The interval histograms over consecutive jobs

What `Times` records over a whole run of jobs, beside the samples that the
descriptions of the five histograms ask for. The timestamp `last_block_at`
outlives the job, the other four are cleared at its end. -/
namespace UnichainBuilder.Intervals
open UnichainBuilder.Lib.RustStd UnichainBuilder.Lib.Runs UnichainBuilder.Lib.Past
open UnichainBuilder.Block UnichainBuilder.Checkpoints UnichainBuilder.Timing
open UnichainBuilder.Publish UnichainBuilder.Job UnichainBuilder.BlockBase

/-- The sample between two instants, when there are both. -/
def between (earlier later : Option Instant) : List Duration :=
  match earlier, later with
  | some earlier, some later => [later.durationSince earlier]
  | _, _ => []

@[simp] theorem between_none_right (earlier : Option Instant) : between earlier none = [] := by
  cases earlier <;> rfl

/-- The gaps between consecutive instants. -/
def gaps (instants : List Instant) : List Duration :=
  List.zipWith Instant.durationSince instants.tail instants

/-! ## What each callback records -/

theorem onJobStarted_eq (times : Times) (metrics : Metrics) (now : Instant) :
    times.onJobStarted metrics now =
      ({ times with jobStarted := some now, jobEnded := none },
       { metrics with
          interJobsInterval :=
            metrics.interJobsInterval ++ between (some now) times.jobEnded }) := by
  unfold Times.onJobStarted
  cases times.jobEnded with
  | none => simp
  | some endedAt => rfl

theorem onJobEnded_eq (times : Times) (metrics : Metrics) (now : Instant) :
    times.onJobEnded metrics now =
      ({ jobEnded := some now, lastBlockAt := times.lastBlockAt },
       { metrics with
          idleTailTime := metrics.idleTailTime ++ between times.lastBlockAt (some now) }) := by
  unfold Times.onJobEnded
  cases times.lastBlockAt with
  | none => simp [between]
  | some lastBlockAt => rfl

/-- The gap to the previous flashblock is taken between two readings of the
same timestamp. -/
theorem onPublishedBlock_eq (times : Times) (metrics : Metrics) (now : Instant) :
    times.onPublishedBlock metrics now =
      ({ times with
          firstBlockAt := times.firstBlockAt.or (some now)
          lastBlockAt := some now
          previousBlockAt := times.lastBlockAt },
       { metrics with
          intraBlockInterval :=
            metrics.intraBlockInterval ++ between times.lastBlockAt times.lastBlockAt
          interBlockInterval := metrics.interBlockInterval ++
            if times.firstBlockAt = none then between times.lastBlockAt (some now) else []
          timeToFirstBlock := metrics.timeToFirstBlock ++
            if times.firstBlockAt = none then between times.jobStarted (some now) else [] }) := by
  unfold Times.onPublishedBlock Times.onFirstBlock
  cases times.firstBlockAt with
  | some first => cases times.lastBlockAt <;> simp [between, record]
  | none =>
    cases times.lastBlockAt <;> cases times.jobStarted <;> simp [between, record]

/-! ## The samples that are asked for, and those recorded -/

variable {Tx : Type}

/-- The instants at which a job publishes. -/
def publishedBy (events : List (JobEvent Tx)) : List Instant :=
  events.filterMap fun e => match e with
    | .rewrite _ => none
    | .step env => match env.buildPayload, env.publish with
      | .ok _, .ok _ => some env.now
      | _, _ => none

def published (job : ServedJob Tx) : List Instant := publishedBy job.events

def allPublished (jobs : List (ServedJob Tx)) : List Instant := jobs.flatMap published

/-- From the preceding job's end to this job's start. -/
def sinceLastEnd (past : List (ServedJob Tx)) (job : ServedJob Tx) : List Duration :=
  between (past.getLast?.map ServedJob.endedAt) (some job.startedAt)

/-- From the last flashblock of any earlier job to this job's first. -/
def sinceLastJob (past : List (ServedJob Tx)) (job : ServedJob Tx) : List Duration :=
  between (allPublished past).getLast? (published job).head?

def untilFirstBlock (job : ServedJob Tx) : List Duration :=
  between (some job.startedAt) (published job).head?

def idleTail (job : ServedJob Tx) : List Duration :=
  between (published job).getLast? (some job.endedAt)

/-- What `Times` records as gaps within a job: a zero for every flashblock
but the first of all. -/
def recordedGaps (past : List (ServedJob Tx)) (job : ServedJob Tx) : List Duration :=
  List.replicate ((published job).length - if allPublished past = [] then 1 else 0) ⟨0⟩

/-- What `Times` records as idle tail: the last flashblock may belong to an
earlier job. -/
def recordedTail (past : List (ServedJob Tx)) (job : ServedJob Tx) : List Duration :=
  between (allPublished (past ++ [job])).getLast? (some job.endedAt)

/-- What `Times` records between jobs: the end minus the start. -/
def recordedSinceLastEnd (past : List (ServedJob Tx)) (job : ServedJob Tx) : List Duration :=
  between (some job.startedAt) (past.getLast?.map ServedJob.endedAt)

/-- Everything a job reads from the clock, in order. -/
def instants (job : ServedJob Tx) : List Instant :=
  job.startedAt :: published job ++ [job.endedAt]

/-- The jobs run one after another and the clock does not go back. -/
def Ordered (jobs : List (ServedJob Tx)) : Prop :=
  (jobs.flatMap instants).Pairwise fun a b => a.nanos ≤ b.nanos

instance (jobs : List (ServedJob Tx)) : Decidable (Ordered jobs) :=
  inferInstanceAs (Decidable (List.Pairwise _ _))

theorem allPublished_eq_nil_iff {jobs : List (ServedJob Tx)} :
    allPublished jobs = [] ↔ ∀ job ∈ jobs, published job = [] :=
  List.flatMap_eq_nil_iff

theorem length_gaps (l : List Instant) : (gaps l).length = l.length - 1 := by
  simp [gaps]

theorem length_gaps_le (past : List (ServedJob Tx)) (job : ServedJob Tx) :
    (gaps (published job)).length ≤ (recordedGaps past job).length := by
  rw [length_gaps, recordedGaps, List.length_replicate]
  split <;> omega

theorem replicate_eq_gaps_iff {l : List Instant} :
    List.replicate (l.length - 1) ⟨0⟩ = gaps l ↔
      l.IsChain fun earlier later => later.nanos ≤ earlier.nanos := by
  induction l with
  | nil => simp [gaps]
  | cons a l ih =>
    cases l with
    | nil => simp [gaps]
    | cons b l =>
      have hgaps : gaps (a :: b :: l) = b.durationSince a :: gaps (b :: l) := rfl
      have hzero : (⟨0⟩ : Duration) = b.durationSince a ↔ b.nanos ≤ a.nanos := by
        rw [Instant.durationSince, Duration.mk.injEq, eq_comm, Nat.sub_eq_zero_iff_le]
      rw [hgaps, List.isChain_cons_cons, ← ih, ← hzero]
      simp [List.replicate_succ]

/-- One sample too many for every job but the first that publishes. -/
theorem recordedGaps_eq_iff {past : List (ServedJob Tx)} {job : ServedJob Tx} :
    recordedGaps past job = gaps (published job) ↔
      (∀ earlier ∈ past, published earlier = [] ∨ published job = []) ∧
        (published job).IsChain fun earlier later => later.nanos ≤ earlier.nanos := by
  rw [recordedGaps]
  cases hjob : published job with
  | nil => simp [gaps]
  | cons a l =>
    simp only [reduceCtorEq, or_false, ← allPublished_eq_nil_iff]
    by_cases hpast : allPublished past = []
    · rw [if_pos hpast, replicate_eq_gaps_iff]
      exact (and_iff_right hpast).symm
    · rw [if_neg hpast]
      refine iff_of_false (fun h => ?_) fun h => hpast h.1
      have hlen := congrArg List.length h
      rw [List.length_replicate, length_gaps, List.length_cons] at hlen
      omega

theorem allPublished_concat (past : List (ServedJob Tx)) (job : ServedJob Tx) :
    allPublished (past ++ [job]) = allPublished past ++ published job := by
  simp [allPublished]

theorem length_idleTail_le (past : List (ServedJob Tx)) (job : ServedJob Tx) :
    (idleTail job).length ≤ (recordedTail past job).length := by
  rw [recordedTail, idleTail, allPublished_concat, List.getLast?_append]
  cases (published job).getLast? with
  | none => exact Nat.zero_le _
  | some last => exact Nat.le_refl _

theorem recordedTail_eq_iff {past : List (ServedJob Tx)} {job : ServedJob Tx} :
    recordedTail past job = idleTail job ↔
      ∀ earlier ∈ past, published earlier = [] ∨ published job ≠ [] := by
  rw [recordedTail, idleTail, allPublished_concat, List.getLast?_append]
  cases hjob : published job with
  | nil =>
    simp only [ne_eq, not_true_eq_false, or_false, ← allPublished_eq_nil_iff]
    rw [← List.getLast?_eq_none_iff]
    cases (allPublished past).getLast? <;> simp [between]
  | cons a l => simp [List.getLast?_cons]

theorem length_sinceLastEnd_le (past : List (ServedJob Tx)) (job : ServedJob Tx) :
    (sinceLastEnd past job).length ≤ (recordedSinceLastEnd past job).length := by
  rw [recordedSinceLastEnd, sinceLastEnd]
  cases past.getLast? <;> exact Nat.le_refl _

theorem recordedSinceLastEnd_eq_iff {past : List (ServedJob Tx)} {job : ServedJob Tx} :
    recordedSinceLastEnd past job = sinceLastEnd past job ↔
      ∀ previous ∈ past.getLast?, previous.endedAt = job.startedAt := by
  rw [recordedSinceLastEnd, sinceLastEnd]
  cases past.getLast? with
  | none => simp [between]
  | some previous =>
    simp only [Option.map_some, between, Instant.durationSince, List.cons.injEq, and_true,
      Duration.mk.injEq, Option.mem_some_iff, forall_eq', ← Instant.nanos_inj]
    omega

/-! ## One job -/

/-- The job has added its samples to `m`, the metrics at its start, after
`before` was published in earlier jobs and `inside` in this one. -/
structure Timed (m : Metrics) (before : List Instant) (startedAt : Instant)
    (inside : List Instant) (p : PublishFlashblock) : Prop where
  jobStarted : p.times.jobStarted = some startedAt
  firstBlockAt : p.times.firstBlockAt = inside.head?
  lastBlockAt : p.times.lastBlockAt = (before ++ inside).getLast?
  intra : p.metrics.intraBlockInterval = m.intraBlockInterval ++
    List.replicate (inside.length - if before = [] then 1 else 0) ⟨0⟩
  inter : p.metrics.interBlockInterval = m.interBlockInterval ++
    between before.getLast? inside.head?
  first : p.metrics.timeToFirstBlock = m.timeToFirstBlock ++
    between (some startedAt) inside.head?
  idle : p.metrics.idleTailTime = m.idleTailTime
  interJobs : p.metrics.interJobsInterval = m.interJobsInterval

variable {m : Metrics} {before inside : List Instant} {startedAt now : Instant}
  {p : PublishFlashblock}

theorem between_self (instant : Option Instant) :
    between instant instant = if instant = none then [] else [⟨0⟩] := by
  cases instant with
  | none => rfl
  | some now => simp [between, Instant.durationSince]

theorem Timed.publish (h : Timed m before startedAt inside p) (span : Span Tx)
    (blockBase : Option OpFlashblockPayloadBase) :
    Timed m before startedAt (inside ++ [now]) {
      blockBase
      times := (p.times.onPublishedBlock p.metrics now).1
      metrics := PublishFlashblock.capturePayloadMetrics
        (p.times.onPublishedBlock p.metrics now).2 span } := by
  rw [onPublishedBlock_eq]
  constructor
  · exact h.jobStarted
  · simp only [h.firstBlockAt]
    cases inside <;> rfl
  · simp
  · simp only [PublishFlashblock.capturePayloadMetrics, h.intra, h.lastBlockAt, between_self,
      List.getLast?_eq_none_iff, List.append_eq_nil_iff, List.append_assoc, List.length_append,
      List.length_singleton]
    congr 1
    by_cases hbefore : before = []
    · cases inside with
      | nil => simp [hbefore]
      | cons first rest => simp [hbefore, List.replicate_succ']
    · simp [hbefore, List.replicate_succ']
  · simp only [PublishFlashblock.capturePayloadMetrics, h.inter, h.firstBlockAt, h.lastBlockAt]
    cases inside <;> simp
  · simp only [PublishFlashblock.capturePayloadMetrics, h.first, h.firstBlockAt, h.jobStarted]
    cases inside <;> simp
  · exact h.idle
  · exact h.interJobs

variable [Encodable2718 Tx]

theorem Timed.handle {ctx : BlockContext} {events : List (JobEvent Tx)} {e : JobEvent Tx}
    {s t : JobState Tx} (h : Timed m before startedAt (publishedBy events) s.publisher)
    (he : s.handle ctx e = some t) :
    Timed m before startedAt (publishedBy (events ++ [e])) t.publisher := by
  cases e with
  | rewrite extensions =>
    cases he
    simpa [publishedBy] using h
  | step env =>
    obtain ⟨r, hr, rfl⟩ := JobState.handle_step_eq_some.mp he
    cases PublishFlashblock.returns_of_step hr with
    | buildFailed build => simpa [publishedBy, build] using h
    | rejected build root publish =>
      have hsame : publishedBy (events ++ [.step env]) = publishedBy events := by
        simp [publishedBy, build, publish]
      rw [hsame]
      exact ⟨h.jobStarted, h.firstBlockAt, h.lastBlockAt, h.intra, h.inter, h.first, h.idle,
        h.interJobs⟩
    | accepted build root publish next_eq =>
      have hnext : publishedBy (events ++ [.step env]) = publishedBy events ++ [env.now] := by
        simp [publishedBy, build, publish]
      rw [hnext]
      exact h.publish _ _

theorem timed_of_run {ctx : BlockContext} {publisher : PublishFlashblock} {startedAt : Instant}
    {prologue : List (Extension Tx)} {events : List (JobEvent Tx)} {s : JobState Tx}
    (hfirst : publisher.times.firstBlockAt = none)
    (hlast : publisher.times.lastBlockAt = before.getLast?)
    (h : run (JobState.handle ctx)
      (JobState.enter (publisher.beforeJob ctx startedAt) prologue) events = some s) :
    Timed (publisher.beforeJob ctx startedAt).metrics before startedAt (publishedBy events)
      s.publisher := by
  refine run_history (P := fun events (s : JobState Tx) =>
    Timed (publisher.beforeJob ctx startedAt).metrics before startedAt (publishedBy events)
      s.publisher) (fun _ _ _ _ hs he => hs.handle he) ?_ h
  rw [PublishFlashblock.beforeJob, onJobStarted_eq]
  exact ⟨rfl, hfirst, by simpa [JobState.enter, publishedBy] using hlast,
    by simp [JobState.enter, publishedBy],
    by simp [JobState.enter, publishedBy], by simp [JobState.enter, publishedBy], rfl, rfl⟩

/-! ## Job after job -/

/-- The publisher between two jobs, after `jobs` were served. -/
structure Recorded (jobs : List (ServedJob Tx)) (p : PublishFlashblock) : Prop where
  jobEnded : p.times.jobEnded = jobs.getLast?.map ServedJob.endedAt
  firstBlockAt : p.times.firstBlockAt = none
  lastBlockAt : p.times.lastBlockAt = (allPublished jobs).getLast?
  intra : p.metrics.intraBlockInterval = flatMapPast recordedGaps [] jobs
  inter : p.metrics.interBlockInterval = flatMapPast sinceLastJob [] jobs
  first : p.metrics.timeToFirstBlock = jobs.flatMap untilFirstBlock
  idle : p.metrics.idleTailTime = flatMapPast recordedTail [] jobs
  interJobs : p.metrics.interJobsInterval = flatMapPast recordedSinceLastEnd [] jobs

theorem Recorded.serve {jobs : List (ServedJob Tx)} {job : ServedJob Tx} {s t : Server Tx}
    (h : Recorded jobs s.publisher) (he : s.serve job = some t) :
    Recorded (jobs ++ [job]) t.publisher := by
  obtain ⟨u, hu, rfl⟩ := Option.map_eq_some_iff.mp he
  have hu := timed_of_run h.firstBlockAt h.lastBlockAt hu
  rw [PublishFlashblock.beforeJob, onJobStarted_eq] at hu
  have hall : allPublished (jobs ++ [job]) = allPublished jobs ++ publishedBy job.events :=
    allPublished_concat jobs job
  simp only [PublishFlashblock.afterJob, onJobEnded_eq]
  constructor
  · simp
  · rfl
  · rw [hall]; exact hu.lastBlockAt
  · rw [flatMapPast_concat, hu.intra, h.intra]; rfl
  · rw [flatMapPast_concat, hu.inter, h.inter]; rfl
  · rw [List.flatMap_append, hu.first, h.first, List.flatMap_singleton]; rfl
  · rw [flatMapPast_concat, hu.idle, hu.lastBlockAt, h.idle, ← hall]; rfl
  · rw [flatMapPast_concat, hu.interJobs, h.jobEnded, h.interJobs]; rfl

/-- What the five histograms hold after any run. -/
theorem recorded_of_run {jobs : List (ServedJob Tx)} {s : Server Tx}
    (h : run Server.serve ⟨{}, []⟩ jobs = some s) : Recorded jobs s.publisher :=
  run_history (P := fun jobs (s : Server Tx) => Recorded jobs s.publisher)
    (fun _ _ _ _ hs he => hs.serve he) ⟨rfl, rfl, rfl, rfl, rfl, rfl, rfl, rfl⟩ h

/-! ## Which runs are recorded as described -/

variable {jobs : List (ServedJob Tx)} {s : Server Tx}

/-- **When the gaps between flashblocks are right.** The gaps across jobs
always are. Those within a job are if and only if at most one job publishes
and no flashblock of it is later than the one before. -/
theorem block_intervals_iff (h : run Server.serve ⟨{}, []⟩ jobs = some s) :
    (s.publisher.metrics.intraBlockInterval = jobs.flatMap (fun job => gaps (published job)) ∧
        s.publisher.metrics.interBlockInterval = flatMapPast sinceLastJob [] jobs) ↔
      jobs.Pairwise (fun earlier later => published earlier = [] ∨ published later = []) ∧
        ∀ job ∈ jobs, (published job).IsChain fun earlier later =>
          later.nanos ≤ earlier.nanos := by
  have hrecorded := recorded_of_run h
  rw [and_iff_left hrecorded.inter, hrecorded.intra,
    ← flatMapPast_of_entry (f := fun job => gaps (published job)) [],
    flatMapPast_eq_iff length_gaps_le, ← atEvery_pairwise, ← atEvery_entry [],
    ← atEvery_and]
  exact atEvery_congr (fun _ _ => recordedGaps_eq_iff) _ _

/-- One job publishes twice at one instant, the next not at all. -/
theorem block_intervals_one_job :
    let publish : JobEvent Bytes := .step { StepEnv.withSink (.ok 0) with now := ⟨2⟩ }
    let jobs : List (ServedJob Bytes) :=
      [⟨default, ⟨0⟩, [], [publish, publish], ⟨6⟩⟩, ⟨default, ⟨7⟩, [], [], ⟨9⟩⟩]
    ∃ s, run Server.serve ⟨{}, []⟩ jobs = some s ∧
      s.publisher.metrics.intraBlockInterval = jobs.flatMap (fun job => gaps (published job)) ∧
      s.publisher.metrics.interBlockInterval = flatMapPast sinceLastJob [] jobs := by
  intro publish jobs
  refine exists_run (fun s => s.served.length) (v := 2) rfl fun s hs _ => ?_
  exact (block_intervals_iff hs).mpr (by decide)

/-- Two flashblocks 3 apart and one in the next job: two zeros. -/
theorem block_intervals_zeros :
    let publish (now : Nat) : JobEvent Bytes :=
      .step { StepEnv.withSink (.ok 0) with now := ⟨now⟩ }
    let jobs : List (ServedJob Bytes) :=
      [⟨default, ⟨0⟩, [], [publish 2, publish 5], ⟨6⟩⟩,
       ⟨default, ⟨7⟩, [], [publish 8], ⟨9⟩⟩]
    Ordered jobs ∧ jobs.flatMap (fun job => gaps (published job)) = [⟨3⟩] ∧
      ∃ s, run Server.serve ⟨{}, []⟩ jobs = some s ∧
        s.publisher.metrics.intraBlockInterval = [⟨0⟩, ⟨0⟩] := by
  intro publish jobs
  refine ⟨by decide, rfl, ?_⟩
  exact exists_run (fun s => s.publisher.metrics.intraBlockInterval) (v := [⟨0⟩, ⟨0⟩]) rfl
    fun _ _ hintra => hintra

/-- **When the idle tails are right.** The times to the first block always
are. A job without a flashblock must not come after one that published. -/
theorem idle_tails_iff (h : run Server.serve ⟨{}, []⟩ jobs = some s) :
    (s.publisher.metrics.idleTailTime = jobs.flatMap idleTail ∧
        s.publisher.metrics.timeToFirstBlock = jobs.flatMap untilFirstBlock) ↔
      jobs.Pairwise fun earlier later => published earlier = [] ∨ published later ≠ [] := by
  have hrecorded := recorded_of_run h
  rw [and_iff_left hrecorded.first, hrecorded.idle, ← flatMapPast_of_entry [],
    flatMapPast_eq_iff length_idleTail_le, ← atEvery_pairwise]
  exact atEvery_congr (fun _ _ => recordedTail_eq_iff) _ _

/-- An empty job comes first. -/
theorem idle_tails_empty_first :
    let publish : JobEvent Bytes := .step { StepEnv.withSink (.ok 0) with now := ⟨8⟩ }
    let jobs : List (ServedJob Bytes) :=
      [⟨default, ⟨0⟩, [], [], ⟨6⟩⟩, ⟨default, ⟨7⟩, [], [publish], ⟨9⟩⟩]
    ∃ s, run Server.serve ⟨{}, []⟩ jobs = some s ∧
      s.publisher.metrics.idleTailTime = jobs.flatMap idleTail ∧
      s.publisher.metrics.timeToFirstBlock = jobs.flatMap untilFirstBlock := by
  intro publish jobs
  refine exists_run (fun s => s.served.length) (v := 2) rfl fun s hs _ => ?_
  exact (idle_tails_iff hs).mpr (by decide)

/-- The empty job comes second and is given the tail of the first. -/
theorem idle_tail_of_empty_job :
    let publish : JobEvent Bytes := .step { StepEnv.withSink (.ok 0) with now := ⟨2⟩ }
    let jobs : List (ServedJob Bytes) :=
      [⟨default, ⟨0⟩, [], [publish], ⟨6⟩⟩, ⟨default, ⟨7⟩, [], [], ⟨9⟩⟩]
    Ordered jobs ∧ jobs.flatMap idleTail = [⟨4⟩] ∧
      ∃ s, run Server.serve ⟨{}, []⟩ jobs = some s ∧
        s.publisher.metrics.idleTailTime = [⟨4⟩, ⟨7⟩] := by
  intro publish jobs
  refine ⟨by decide, rfl, ?_⟩
  exact exists_run (fun s => s.publisher.metrics.idleTailTime) (v := [⟨4⟩, ⟨7⟩]) rfl
    fun _ _ hidle => hidle

/-- **When the gaps between jobs are right.** They are recorded as end minus
start, which is start minus end only where there is no gap. -/
theorem inter_jobs_iff (h : run Server.serve ⟨{}, []⟩ jobs = some s) :
    s.publisher.metrics.interJobsInterval = flatMapPast sinceLastEnd [] jobs ↔
      jobs.IsChain fun previous next => previous.endedAt = next.startedAt := by
  rw [(recorded_of_run h).interJobs, flatMapPast_eq_iff length_sinceLastEnd_le,
    ← atEvery_isChain]
  exact atEvery_congr (fun _ _ => recordedSinceLastEnd_eq_iff) _ _

/-- The second job starts at the instant the first ends. -/
theorem inter_jobs_adjacent :
    let jobs : List (ServedJob Bytes) :=
      [⟨default, ⟨0⟩, [], [], ⟨6⟩⟩, ⟨default, ⟨6⟩, [], [], ⟨9⟩⟩]
    ∃ s, run Server.serve ⟨{}, []⟩ jobs = some s ∧
      s.publisher.metrics.interJobsInterval = flatMapPast sinceLastEnd [] jobs := by
  intro jobs
  refine exists_run (fun s => s.served.length) (v := 2) rfl fun s hs _ => ?_
  exact (inter_jobs_iff hs).mpr (by decide)

/-- A gap of 1 is recorded as zero. -/
theorem inter_jobs_lost_gap :
    let jobs : List (ServedJob Bytes) :=
      [⟨default, ⟨0⟩, [], [], ⟨6⟩⟩, ⟨default, ⟨7⟩, [], [], ⟨9⟩⟩]
    Ordered jobs ∧ flatMapPast sinceLastEnd [] jobs = [⟨1⟩] ∧
      ∃ s, run Server.serve ⟨{}, []⟩ jobs = some s ∧
        s.publisher.metrics.interJobsInterval = [⟨0⟩] := by
  intro jobs
  refine ⟨by decide, rfl, ?_⟩
  exact exists_run (fun s => s.publisher.metrics.interJobsInterval) (v := [⟨0⟩]) rfl
    fun _ _ hgaps => hgaps

/-- With a clock that does not go back, all that is recorded between jobs is
zero. -/
theorem inter_jobs_zero (h : run Server.serve ⟨{}, []⟩ jobs = some s) (ordered : Ordered jobs) :
    ∀ sample ∈ s.publisher.metrics.interJobsInterval, sample = ⟨0⟩ := by
  have hchain : jobs.IsChain fun previous next => previous.endedAt.nanos ≤ next.startedAt.nanos :=
    ((List.pairwise_flatMap.mp ordered).2.imp fun h =>
      h _ (by simp [instants]) _ (by simp [instants])).isChain
  rw [(recorded_of_run h).interJobs, forall_mem_flatMapPast]
  refine (atEvery_congr (fun past job => ?_) _ _).mp (atEvery_isChain.mpr hchain)
  rw [recordedSinceLastEnd]
  cases past.getLast? with
  | none => simp
  | some previous => simp [between, Instant.durationSince, Nat.sub_eq_zero_iff_le]

end UnichainBuilder.Intervals

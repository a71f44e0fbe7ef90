import UnichainBuilder.OverlappingJobs

/-! # Whole blocks

A loop that the counter ends has just published, so that nothing of its payload
is left. Its flashblocks are the block, on the channel and with every peer that
keeps up: what the end-to-end tests of the repository look at. -/
namespace UnichainBuilder.WholeBlocks
open UnichainBuilder.Lib.RustStd UnichainBuilder.Lib.Runs UnichainBuilder.Block
open UnichainBuilder.Checkpoints UnichainBuilder.Publish UnichainBuilder.Job
open UnichainBuilder.PublishedLog UnichainBuilder.FlashblocksLoop UnichainBuilder.FlashblockCount
open UnichainBuilder.Lib.Broadcast UnichainBuilder.Service UnichainBuilder.ServiceChannel
open UnichainBuilder.Subscribers UnichainBuilder.Observer UnichainBuilder.BlockProduction
open UnichainBuilder.OverlappingJobs
open UnichainBuilder.WebSocketSink (Peer)
open UnichainBuilder.Publish.PublishFlashblock (computeBase)

variable {Tx : Type} [Encodable2718 Tx] {cfg : LoopConfig} {s t : LoopState Tx}

/-- The transactions that no accepted message has carried. -/
def pending (s : LoopState Tx) : List Tx :=
  Span.transactions (PublishFlashblock.unpublishedPayload s.job.payload)

/-- Behind a call either nothing is pending or there is room for a flashblock. -/
structure Whole (cfg : LoopConfig) (s : LoopState Tx) : Prop where
  counted : Counted cfg s
  checking : s.phase = .checking → pending s = [] ∨
    s.job.accepted.length = 0 ∨ s.job.accepted.length + 1 ≤ targetCount cfg
  left : s.phase = .leftByMax → 1 ≤ targetCount cfg → pending s = []

theorem Whole.enter (cfg : LoopConfig) (publisher : PublishFlashblock)
    (prologue : List (Extension Tx)) : Whole cfg (LoopState.enter publisher prologue) where
  counted := counted_enter cfg publisher prologue
  checking h := by cases h
  left h := by cases h

/-- A call that is not accepted leaves the job's room, one that is leaves nothing pending. -/
theorem pending_of_call {job : JobState Tx} {env : StepEnv} {log : Lib.CommitLog.Log Tx}
    (hlog : Refines s.job log) (h : s.job.handle cfg.block (.step env) = some job) :
    Span.transactions (PublishFlashblock.unpublishedPayload job.payload) = [] ∨
      job.accepted = s.job.accepted := by
  obtain ⟨r, hr, rfl⟩ := JobState.handle_step_eq_some.mp h
  cases PublishFlashblock.returns_of_step hr with
  | buildFailed | rejected => exact .inr (List.append_nil _)
  | accepted build root publish next_eq =>
    obtain ⟨published, barrier, rest, hsplit, -⟩ := hlog.split
    left
    rw [ControlFlow.payload_ok, (hsplit.barrierWithContext next_eq).unpublishedPayload_eq]
    exact Span.transactions_singleton_barrier rfl

theorem Whole.transition (hs : Whole cfg s) (h : Transition cfg s t) : Whole cfg t := by
  have hcounted := hs.counted.transition h
  obtain ⟨log, hlog⟩ := hs.counted.refines
  cases h with
  | opened phase create | buildFailed phase build | continued phase target_eq below =>
    exact ⟨hcounted, fun h => by simp at h, fun h => by simp at h⟩
  | rewritten extensions phase handle =>
    cases handle
    exact ⟨hcounted, fun h => by simp [phase] at h, fun h => by simp [phase] at h⟩
  | called phase handle =>
    refine ⟨hcounted, fun _ => ?_, fun h => by simp at h⟩
    rcases pending_of_call hlog handle with hnone | hsame
    · exact .inl hnone
    · right
      rw [hsame]
      exact hs.counted.room (.inr phase)
  | stopped phase target_eq above =>
    refine ⟨hcounted, fun h => by simp at h, fun _ hpos => ?_⟩
    have hlt : ¬ s.job.payload.context.current.toNat ≤ _ :=
      fun hle => above (UInt64.le_iff_toNat_le.mpr hle)
    rw [hlog.counter, target_toNat_eq target_eq] at hlt
    rcases hs.checking phase with hnone | hroom
    · exact hnone
    · omega

/-- It is kept by a loop on its own. -/
theorem whole_invariant : LoopInvariant (@Whole Tx _) where
  enter := Whole.enter
  publisher publisher hs hle :=
    ⟨counted_invariant.publisher publisher hs.counted hle, hs.checking, hs.left⟩
  handle hs h := hs.transition (LoopState.transition_of_handle h)

/-! ## The block on the wire -/

section
variable {json : PayloadJson} {s : Builder Tx} {events : List (BlockProduction.Event Tx)}
  {i : Nat} {job : PayloadJob Tx} {loop : JobLoop}

/-- The messages of a job: no more than the target, and the block once the
counter has ended its loop. -/
theorem accepted_of_run (h : run (Builder.handle json) Builder.new events = some s)
    (get : s.node.jobs[i]? = some job) (hloop : s.loops[i]? = some loop) :
    job.accepted.length ≤ max 1 (targetCount loop.cfg) ∧
      (loop.phase = .leftByMax → 1 ≤ targetCount loop.cfg →
        job.accepted.length = targetCount loop.cfg ∧
          job.accepted.flatMap (fun m => m.diff.transactions) =
            job.payload.transactions.map encoded2718) := by
  have hwhole := (inLoops_of_run whole_invariant h).keeps i job loop get hloop
  have hbound : job.accepted.length ≤ max 1 (targetCount loop.cfg) := hwhole.counted.bound
  refine ⟨hbound, fun hleft hpos => ?_⟩
  have hfull : targetCount loop.cfg ≤ job.accepted.length := hwhole.counted.full hleft
  have hnone : Span.transactions (PublishFlashblock.unpublishedPayload job.payload) = [] :=
    hwhole.left hleft hpos
  have hall := accepted_transactions (BlockProduction.invariant_of_run h) get
  rw [hnone, List.map_nil, List.append_nil] at hall
  exact ⟨by omega, hall⟩

/-- **The flashblocks are the block.** However the jobs overlap, whatever is
rejected: under the id of a payload no more flashblocks are sent than fit its
deadline, one if none do; and once the counter has ended its loop these are as
many as fit, numbered from zero, and their transactions are those of the
payload, all of them and in order. -/
theorem block_published (h : run (Builder.handle json) Builder.new events = some s)
    (get : s.node.jobs[i]? = some job) (hloop : s.loops[i]? = some loop)
    (hunique : s.node.Unique i) :
    let published := json.flashblocksOf job.ctx.payloadId s.node.sink.pipe.sent
    published.length ≤ max 1 (targetCount loop.cfg) ∧
      (loop.phase = .leftByMax → 1 ≤ targetCount loop.cfg →
        published.map (fun m => m.index.toNat) = List.range (targetCount loop.cfg) ∧
          published.flatMap (fun m => m.diff.transactions) =
            job.payload.transactions.map encoded2718) := by
  have hs := BlockProduction.invariant_of_run h
  intro published
  have hpublished : published = job.accepted := (hs.carried i job get hunique).1
  obtain ⟨hbound, hwhole⟩ := accepted_of_run h get hloop
  rw [hpublished]
  refine ⟨hbound, fun hleft hpos => ?_⟩
  obtain ⟨hlength, hall⟩ := hwhole hleft hpos
  have hindices := accepted_indices hs get
  rw [hlength] at hindices
  exact ⟨hindices, hall⟩

theorem block_published_two_jobs : ∃ s : Builder Bytes, ∃ job,
    run (Builder.handle twoJobsJson) Builder.new twoJobs = some s ∧
      s.node.jobs[0]? = some job ∧
      (twoJobsJson.flashblocksOf job.ctx.payloadId s.node.sink.pipe.sent).flatMap
        (fun m => m.diff.transactions) = [[1], [3], [4]] := by
  obtain ⟨s, job, loop, hs, get, hloop, hids, hleft, htarget, hpayload⟩ := twoJobs_run
  have hwhole := (block_published hs get hloop (overlapping_unique hids)).2 hleft
    (by rw [htarget]; decide)
  refine ⟨s, job, hs, get, ?_⟩
  rw [hwhole.2, hpayload]
  rfl

/-- **The observer sees the block.** It subscribed before the jobs began, was
made to skip nothing and has read all there is: what it finds for a block
number are the flashblocks of one job, and once the counter has ended the loop
of that job, they are as many as fit and their transactions are the block. It
is the block of that number when every base was sent by its own job. -/
theorem block_observed {j : Nat} {peer : Peer Utf8Bytes} {readings : List Reading}
    {blockNumber : UInt64} {found : List ObservedFlashblock}
    (h : run (Builder.handle json) Builder.new events = some s) (hids : s.node.ids.Nodup)
    (hpeer : s.node.sink.peers[j]? = some peer) (hskipped : peer.skipped = [])
    (hread : peer.CaughtUp s.node.sink.pipe)
    (hstart : ∀ job ∈ s.node.jobs, peer.start ≤ job.openedAt)
    (hreadings : readings.filterMap Reading.text = peer.written)
    (hclock : readings.Pairwise fun a b => a.now.nanos ≤ b.now.nanos)
    (hfound : (observe json readings).byBlockNumber blockNumber = .ok found) :
    ∃ (i : Nat) (job : PayloadJob Tx) (loop : JobLoop),
      s.node.jobs[i]? = some job ∧ s.loops[i]? = some loop ∧
      (∀ fb ∈ found, fb.block.payloadId = job.ctx.payloadId) ∧
      (loop.phase = .leftByMax → 1 ≤ targetCount loop.cfg →
        found.length = targetCount loop.cfg ∧
          found.flatMap (fun fb => fb.block.diff.transactions) =
            job.payload.transactions.map encoded2718) ∧
      ((∀ m ∈ job.accepted, ∀ b ∈ m.base, b = computeBase job.ctx) →
        job.ctx.number = blockNumber) := by
  have hs := BlockProduction.invariant_of_run h
  have haccounts := hs.sink.peers j peer hpeer
  have htexts : readings.filterMap Reading.text = s.node.sink.pipe.sent.drop peer.start :=
    hreadings.trans (haccounts.written_eq_drop hskipped hread)
  obtain ⟨i, job, get, hblocks, hbase⟩ :=
    job_of_found hs ⟨[], (List.append_nil _).trans htexts⟩ hclock hfound
  have hlt : i < s.loops.length := by
    rw [(inLoops_of_run whole_invariant h).paired.length]
    exact (List.getElem?_eq_some_iff.mp get).1
  have haccepted : found.map ObservedFlashblock.block = job.accepted := by
    rw [hblocks, htexts]
    exact flashblocks_since hs get (unique_of_nodup hids get)
      (hstart job (List.mem_of_getElem? get))
  refine ⟨i, job, s.loops[i], get, List.getElem?_eq_getElem hlt, payloadId_of_blocks hblocks,
    fun hleft hpos => ?_, number_of_own_base ⟨[], (List.append_nil _).trans haccepted⟩ hbase⟩
  obtain ⟨hlength, hall⟩ :=
    (accepted_of_run h get (List.getElem?_eq_getElem hlt)).2 hleft hpos
  rw [← haccepted, List.length_map] at hlength
  rw [← haccepted, List.flatMap_map] at hall
  exact ⟨hlength, hall⟩

/-- The observer has read all three flashblocks. -/
def twoJobsReadings : List Reading :=
  (twoJobsMessages.zip [⟨5⟩, ⟨6⟩, ⟨7⟩]).map fun e => ⟨some (.text (PayloadJson.text e.1)), e.2⟩

def twoJobsFound : List ObservedFlashblock :=
  [⟨flashblockOf 1 0 [[1]] (some { (default : OpFlashblockPayloadBase) with timestamp := 2 }), ⟨5⟩⟩,
    ⟨flashblockOf 1 1 [[3], [4]] none, ⟨7⟩⟩]

theorem twoJobs_byBlockNumber :
    (observe twoJobsJson twoJobsReadings).byBlockNumber 0 = .ok twoJobsFound := by
  have hseen : (observe twoJobsJson twoJobsReadings).flashblocks =
      (twoJobsMessages.zip [⟨5⟩, ⟨6⟩, ⟨7⟩]).map fun e => ⟨e.1, e.2⟩ := by
    rw [flashblocks_observe, twoJobsReadings, twoJobsJson, List.filterMap_map,
      ← List.filterMap_eq_map]
    refine List.filterMap_congr fun e he => ?_
    have hmem : e.1 ∈ twoJobsMessages := (List.of_mem_zip he).1
    rw [Function.comp_apply, Function.comp_apply, flashblock_text hmem]
  rw [Observations.byBlockNumber, hseen]
  rfl

theorem twoJobs_read : ∃ s : Builder Bytes, ∃ peer,
    run (Builder.handle twoJobsJson) Builder.new twoJobs = some s ∧
      s.node.sink.peers[0]? = some peer ∧ peer.start = 0 ∧ peer.skipped = [] ∧
      peer.CaughtUp s.node.sink.pipe ∧
      peer.written = twoJobsMessages.map PayloadJson.text := by
  have hrun : ∃ s : Builder Bytes,
      run (Builder.handle twoJobsJson) Builder.new twoJobs = some s ∧
        (s.node.sink.peers.map (fun peer =>
            (peer.start, peer.skipped, peer.sending, peer.receiver.next, peer.written)),
          s.node.sink.pipe.sent.length) =
        ([(0, [], none, 3, twoJobsMessages.map PayloadJson.text)], 3) :=
    exists_run _ rfl fun s _ hv => hv
  obtain ⟨s, hs, hv⟩ := hrun
  obtain ⟨hpeers, hsent⟩ := Prod.mk.inj hv
  obtain ⟨peer, hpeer, hread⟩ := List.map_eq_singleton_iff.mp hpeers
  simp only [Prod.mk.injEq] at hread
  obtain ⟨hstart, hskipped, hidle, hnext, hwritten⟩ := hread
  exact ⟨s, peer, hs, by rw [hpeer]; rfl, hstart, hskipped, ⟨hidle, hnext.trans hsent.symm⟩,
    hwritten⟩

theorem block_observed_two_jobs : ∃ s : Builder Bytes, ∃ job,
    run (Builder.handle twoJobsJson) Builder.new twoJobs = some s ∧
      s.node.jobs[0]? = some job ∧ twoJobsFound.length = 2 ∧
      twoJobsFound.flatMap (fun fb => fb.block.diff.transactions) =
        job.payload.transactions.map encoded2718 := by
  obtain ⟨s, job, loop, hs, get, hloop, hids, hleft, htarget, -⟩ := twoJobs_run
  obtain ⟨s', peer, hs', hpeer, hstart, hskipped, hread, hwritten⟩ := twoJobs_read
  rw [hs] at hs'
  cases hs'
  have hreadings : twoJobsReadings.filterMap Reading.text = peer.written := by
    rw [hwritten]
    rfl
  obtain ⟨i, found, loop', hfound, hloop', hpayloadId, hwhole, -⟩ :=
    block_observed hs (by rw [hids]; decide) hpeer hskipped hread
      (fun job _ => by rw [hstart]; exact Nat.zero_le _) hreadings (by decide)
      twoJobs_byBlockNumber
  -- what was found bears the first of the two ids
  have hfirst : found.ctx.payloadId = 1 := (hpayloadId _ List.mem_cons_self).symm
  have hzero : i = 0 := by
    have hid : s.node.ids[i]? = some 1 := by
      rw [Node.ids, List.getElem?_map, hfound, Option.map_some, hfirst]
    refine overlapping_unique hids i ?_
    rw [hid, hids]
    rfl
  subst hzero
  rw [hloop] at hloop'
  rw [get] at hfound
  cases hloop'
  cases hfound
  obtain ⟨hlength, hall⟩ := hwhole hleft (by rw [htarget]; decide)
  exact ⟨s, job, hs, get, rfl, hall⟩

end

end UnichainBuilder.WholeBlocks

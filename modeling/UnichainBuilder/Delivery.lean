import UnichainBuilder.Observer

/-! # Delivery

The channel carries each accepted message once and nothing else, whatever ids
the payloads bear. An observer can read all that it is written: it counts the
errors of its connection and no others. -/
namespace UnichainBuilder.Delivery
open UnichainBuilder.Lib.Runs UnichainBuilder.Lib.Broadcast UnichainBuilder.Block
open UnichainBuilder.Publish UnichainBuilder.Service UnichainBuilder.ServiceChannel
open UnichainBuilder.Subscribers UnichainBuilder.Observer
open UnichainBuilder.WebSocketSink (Peer)

/-! ## What an observer counts as errors -/

/-- The stream has failed, or its text is no flashblock. -/
def fails (json : PayloadJson) (reading : Reading) : Bool :=
  match reading.message with
  | none => true
  | some (.text utf8Bytes) => (json.fromStr utf8Bytes).isNone
  | some .other => false

theorem errors_recordWs (json : PayloadJson) (self : Observations) (reading : Reading) :
    (self.recordWs json reading).errors = self.errors + if fails json reading then 1 else 0 := by
  unfold Observations.recordWs fails
  cases reading.message with
  | none => rfl
  | some msg =>
    cases msg with
    | text utf8Bytes =>
      cases hread : json.fromStr utf8Bytes with
      | none => simp [Observations.recordMessage, hread]
      | some block => simp [Observations.recordMessage, Observations.recordFlashblock, hread]
    | other => rfl

theorem errors_foldl (json : PayloadJson) (readings : List Reading) (self : Observations) :
    (readings.foldl (fun self reading => self.recordWs json reading) self).errors =
      self.errors + readings.countP (fails json) := by
  induction readings generalizing self with
  | nil => rfl
  | cons reading readings ih =>
    rw [List.foldl_cons, ih, errors_recordWs, List.countP_cons]
    omega

/-- Where every text is a flashblock, only the stream fails. -/
theorem errors_observe {json : PayloadJson} {readings : List Reading}
    (htexts : ∀ text ∈ readings.filterMap Reading.text, (json.fromStr text).isSome) :
    (observe json readings).errors = readings.countP fun reading => reading.message.isNone := by
  rw [observe, errors_foldl, Nat.zero_add]
  refine List.countP_congr fun reading hreading => ?_
  unfold fails
  cases hmessage : reading.message with
  | none => simp
  | some msg =>
    cases msg with
    | text utf8Bytes =>
      have hsome := htexts utf8Bytes (List.mem_filterMap.mpr ⟨reading, hreading, by
        rw [Reading.text, hmessage]⟩)
      simp [Option.isNone_iff_eq_none, Option.isSome_iff_ne_none.mp hsome]
    | other => simp

/-! ## What is on the channel -/

section
variable {α β : Type} {l : List α} {f : α → List β} {i : Nat} {a b : α}

theorem flatMap_set_perm (get : l[i]? = some a) {more : List β} (hf : f b = f a ++ more) :
    ((l.set i b).flatMap f).Perm (l.flatMap f ++ more) := by
  obtain ⟨hlt, rfl⟩ := List.getElem?_eq_some_iff.mp get
  have hsplit : l.flatMap f = (l.take i).flatMap f ++ (f l[i] ++ (l.drop (i + 1)).flatMap f) := by
    rw [← List.flatMap_cons, ← List.flatMap_append, ← List.drop_eq_getElem_cons hlt,
      List.take_append_drop]
  rw [List.set_eq_take_append_cons_drop, if_pos hlt, List.flatMap_append, List.flatMap_cons, hf,
    hsplit, List.append_assoc, List.append_assoc, List.append_assoc]
  exact (List.perm_append_comm.append_left _).append_left _

end

variable {Tx : Type} [Encodable2718 Tx] {json : PayloadJson} {s t : Node Tx}

/-- The channel and the jobs agree on what has been published. -/
structure Delivered (json : PayloadJson) (s : Node Tx) : Prop where
  readable : ∀ text ∈ s.sink.pipe.sent, (json.fromStr text).isSome
  accepted : (s.sink.pipe.sent.filterMap json.fromStr).Perm (s.jobs.flatMap PayloadJob.accepted)

omit [Encodable2718 Tx] in
/-- A turn that publishes nothing. -/
theorem Delivered.set (hs : Delivered json s) {i : Nat} {job : PayloadJob Tx}
    (job' : PayloadJob Tx) (get : s.jobs[i]? = some job) (haccepted : job'.accepted = job.accepted)
    (publisher : PublishFlashblock) :
    Delivered json { s with publisher, jobs := s.jobs.set i job' } := by
  have hset := flatMap_set_perm (f := PayloadJob.accepted) get
    (haccepted.trans (List.append_nil _).symm)
  rw [List.append_nil] at hset
  exact ⟨hs.readable, hs.accepted.trans hset.symm⟩

theorem Delivered.handle (hs : Delivered json s) {e : Event Tx} (h : s.handle json e = some t) :
    Delivered json t := by
  cases Node.transition_of_handle h with
  | opened =>
    refine ⟨hs.readable, ?_⟩
    rw [List.flatMap_append, List.flatMap_singleton, List.append_nil]
    exact hs.accepted
  | @rewritten i job extensions get =>
    exact hs.set { job with payload := job.payload.rewrite extensions } get rfl s.publisher
  | buildFailed => exact hs
  | rejected => exact ⟨hs.readable, hs.accepted⟩
  | accepted get handed serialized published next_eq =>
    have hread := json.fromStr_toString serialized
    refine ⟨fun text htext => ?_, ?_⟩
    · rcases List.mem_append.mp htext with hold | hnew
      · exact hs.readable text hold
      · rw [List.mem_singleton.mp hnew, hread]
        rfl
    · rw [Channel.send, List.filterMap_append, List.filterMap_cons_some hread, List.filterMap_nil]
      exact (hs.accepted.append_right _).trans (flatMap_set_perm get rfl).symm
  | @closed i now job get => exact hs.set { job with running := false } get rfl _
  | transported unpublished handle =>
    have hpipe := pipe_of_handle unpublished handle
    exact ⟨hpipe ▸ hs.readable, hpipe ▸ hs.accepted⟩

theorem delivered_of_run {events : List (Event Tx)}
    (h : run (Node.handle json) Node.new events = some s) : Delivered json s := by
  have hnew : Delivered json (Node.new : Node Tx) :=
    ⟨fun _ h => absurd h List.not_mem_nil, List.Perm.refl _⟩
  exact run_invariant (fun _ _ _ hs he => hs.handle he) hnew h

theorem hasNoErrors_eq {observations : Observations} {readings : List Reading}
    (h : observations.errors = readings.countP fun reading => reading.message.isNone) :
    observations.hasNoErrors = readings.all fun reading => reading.message.isSome := by
  rw [Bool.eq_iff_iff, Observations.hasNoErrors, decide_eq_true_eq, h, List.countP_eq_zero,
    List.all_eq_true]
  simp [Option.isSome_iff_ne_none]

/-- **Nothing is invented, repeated or lost.** Whatever ids the payloads bear and
however far the peer lags: an observer of what its peer is written counts an
error only where the stream fails, has none if it never does, and what it records are accepted messages,
none more often than it was accepted. If the peer was there from the start,
skipped nothing and has nothing waiting, they are all of them, each once. -/
theorem observer_records {events : List (Event Tx)} {j : Nat} {peer : Peer Utf8Bytes}
    {readings : List Reading} (h : run (Node.handle json) Node.new events = some s)
    (hpeer : s.sink.peers[j]? = some peer)
    (hreadings : readings.filterMap Reading.text <+: peer.written) :
    let observations := observe json readings
    observations.errors = readings.countP (fun reading => reading.message.isNone) ∧
      observations.hasNoErrors = readings.all (fun reading => reading.message.isSome) ∧
      (observations.flashblocks.map ObservedFlashblock.block).Subperm
        (s.jobs.flatMap PayloadJob.accepted) ∧
      (peer.start = 0 → peer.skipped = [] → peer.CaughtUp s.sink.pipe →
        readings.filterMap Reading.text = peer.written →
          (observations.flashblocks.map ObservedFlashblock.block).Perm
            (s.jobs.flatMap PayloadJob.accepted)) := by
  intro observations
  have hdelivered := delivered_of_run h
  have haccounts := (invariant_of_run h).sink.peers j peer hpeer
  have hsent : (readings.filterMap Reading.text).Sublist s.sink.pipe.sent :=
    (hreadings.sublist.trans haccounts.written_sublist).trans (List.drop_sublist _ _)
  have hblocks := blocks_observe json readings
  have herrors : observations.errors = readings.countP fun reading => reading.message.isNone :=
    errors_observe fun text htext => hdelivered.readable text (hsent.subset htext)
  refine ⟨herrors, hasNoErrors_eq herrors, ?_, ?_⟩
  · rw [hblocks]
    exact (hsent.filterMap _).subperm.trans hdelivered.accepted.subperm
  · intro hstart hskipped hread hall
    have htexts : peer.written = s.sink.pipe.sent := by
      have hdrop := haccounts.written_eq_drop hskipped hread
      rwa [hstart, List.drop_zero] at hdrop
    rw [hblocks, hall, htexts]
    exact hdelivered.accepted

theorem observer_records_overlapping : ∃ s : Node Bytes,
    run (Node.handle overlappingJson) Node.new watchedEvents = some s ∧
      (observe overlappingJson overlappingReadings).errors = 0 ∧
      (observe overlappingJson overlappingReadings).hasNoErrors = true ∧
      ((observe overlappingJson overlappingReadings).flashblocks.map
        ObservedFlashblock.block).Subperm (s.jobs.flatMap PayloadJob.accepted) := by
  have hrun : ∃ s : Node Bytes,
      run (Node.handle overlappingJson) Node.new watchedEvents = some s ∧
        s.sink.peers[0]?.map Peer.written = some (overlappingReadings.filterMap Reading.text) :=
    exists_run _ rfl fun s _ hv => hv
  obtain ⟨s, hs, hwritten⟩ := hrun
  obtain ⟨peer, hpeer, htexts⟩ := Option.map_eq_some_iff.mp hwritten
  obtain ⟨herrors, hnone, hrecorded, -⟩ := observer_records hs hpeer (by rw [htexts])
  exact ⟨s, hs, herrors, hnone, hrecorded⟩

end UnichainBuilder.Delivery

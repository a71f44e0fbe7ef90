import UnichainBuilder.Service

/-! # What the channel has carried

Where no two jobs build payloads of the same id, the flashblocks of a payload
among all that was sent are the messages of its job, in order. -/
namespace UnichainBuilder.ServiceChannel
open UnichainBuilder.Lib.RustStd UnichainBuilder.Lib.Runs UnichainBuilder.Lib.CommitLog
open UnichainBuilder.Lib.Broadcast UnichainBuilder.Block UnichainBuilder.State
open UnichainBuilder.Checkpoints UnichainBuilder.Publish UnichainBuilder.Job
open UnichainBuilder.PublishedLog UnichainBuilder.Service
open UnichainBuilder.WebSocketSink (Sink)

variable {Tx : Type} [Encodable2718 Tx] {json : PayloadJson} {s t : Node Tx}

/-- The jobs refine logs of their own, and of a payload whose id no other one has
the channel has carried exactly what was published. -/
structure Invariant (json : PayloadJson) (s : Node Tx) : Prop where
  sink : WebSocketSink.Invariant s.sink
  refines : ∀ (i : Nat) (job : PayloadJob Tx), s.jobs[i]? = some job →
    ∃ log, Refines (job.state s.publisher) log
  openedAt : ∀ (i : Nat) (job : PayloadJob Tx), s.jobs[i]? = some job →
    job.openedAt ≤ s.sink.pipe.sent.length
  known : ∀ id, id ∉ s.ids → json.flashblocksOf id s.sink.pipe.sent = []
  carried : ∀ (i : Nat) (job : PayloadJob Tx), s.jobs[i]? = some job → s.Unique i →
    json.flashblocksOf job.ctx.payloadId s.sink.pipe.sent = job.accepted ∧
      json.flashblocksOf job.ctx.payloadId (s.sink.pipe.sent.take job.openedAt) = []

theorem invariant_new : Invariant json (Node.new : Node Tx) where
  sink := WebSocketSink.invariant_new _
  refines _ _ h := nomatch h
  openedAt _ _ h := nomatch h
  known _ _ := rfl
  carried _ _ h := nomatch h

omit [Encodable2718 Tx] in
theorem job_of_set {i k : Nat} {job' found : PayloadJob Tx}
    (h : (s.jobs.set i job')[k]? = some found) :
    found = job' ∧ k = i ∨ k ≠ i ∧ s.jobs[k]? = some found := by
  by_cases hik : i = k
  · subst hik
    rw [List.getElem?_set_self' ] at h
    obtain ⟨_, _, rfl⟩ := Option.map_eq_some_iff.mp h
    exact .inl ⟨rfl, rfl⟩
  · rw [List.getElem?_set_ne hik] at h
    exact .inr ⟨fun h => hik h.symm, h⟩

omit [Encodable2718 Tx] in
theorem ids_set {i : Nat} {job : PayloadJob Tx} (job' : PayloadJob Tx)
    (get : s.jobs[i]? = some job)
    (hctx : job'.ctx = job.ctx) (publisher : PublishFlashblock) (sink : Sink Utf8Bytes) :
    Node.ids { publisher, sink, jobs := s.jobs.set i job' } = s.ids := by
  obtain ⟨hlt, rfl⟩ := List.getElem?_eq_some_iff.mp get
  calc (s.jobs.set i job').map (fun job => job.ctx.payloadId)
      = (s.jobs.set i s.jobs[i]).map (fun job => job.ctx.payloadId) := by
        rw [List.map_set, List.map_set, hctx]
    _ = s.ids := by rw [List.set_getElem_self hlt, Node.ids]

omit [Encodable2718 Tx] in
theorem id_ne {i k : Nat} {job other : PayloadJob Tx} (get : s.jobs[i]? = some job)
    (hother : s.jobs[k]? = some other) (hunique : s.Unique k) (hne : k ≠ i) :
    job.ctx.payloadId ≠ other.ctx.payloadId := by
  intro hid
  refine hne (hunique i ?_).symm
  simp [Node.ids, get, hother, hid]

/-- A change of one job that leaves its messages alone. -/
theorem Invariant.set (hs : Invariant json s) {i : Nat} {job : PayloadJob Tx}
    (job' : PayloadJob Tx) (get : s.jobs[i]? = some job) (hctx : job'.ctx = job.ctx)
    (hopened : job'.openedAt = job.openedAt) (haccepted : job'.accepted = job.accepted)
    (publisher : PublishFlashblock) (hlog : ∃ log, Refines (job'.state publisher) log) :
    Invariant json { s with publisher, jobs := s.jobs.set i job' } := by
  have hids := ids_set job' get hctx publisher s.sink
  refine ⟨hs.sink, fun k found hk => ?_, fun k found hk => ?_, fun id hid => ?_,
    fun k found hk hunique => ?_⟩
  · rcases job_of_set hk with ⟨rfl, _⟩ | ⟨_, hold⟩
    · exact hlog
    · obtain ⟨log, hold⟩ := hs.refines k found hold
      exact ⟨log, hold.unpublished publisher⟩
  · rcases job_of_set hk with ⟨rfl, _⟩ | ⟨_, hold⟩
    · rw [hopened]
      exact hs.openedAt i job get
    · exact hs.openedAt k found hold
  · rw [hids] at hid
    exact hs.known id hid
  · rw [Node.Unique, hids] at hunique
    rcases job_of_set hk with ⟨rfl, rfl⟩ | ⟨_, hold⟩
    · rw [hctx, hopened, haccepted]
      exact hs.carried k job get hunique
    · exact hs.carried k found hold hunique

/-- One more message: of its own job the next, and of no other job. -/
theorem Invariant.sent (hs : Invariant json s) {i : Nat} {job : PayloadJob Tx}
    {message : OpFlashblockPayload} {text : Utf8Bytes} {payload : Payload Tx}
    (get : s.jobs[i]? = some job) (hid : message.payloadId = job.ctx.payloadId)
    (serialized : json.toString message = .ok text)
    (published : s.sink.handle (.publish (.ok text)) =
      some { s.sink with pipe := s.sink.pipe.send text })
    (publisher : PublishFlashblock)
    (hlog : ∃ log, Refines ⟨publisher, payload, job.accepted ++ [message]⟩ log) :
    Invariant json {
      publisher
      sink := { s.sink with pipe := s.sink.pipe.send text }
      jobs := s.jobs.set i { job with payload, accepted := job.accepted ++ [message] } } := by
  let job' : PayloadJob Tx := { job with payload, accepted := job.accepted ++ [message] }
  have hids := ids_set job' get rfl publisher { s.sink with pipe := s.sink.pipe.send text }
  have hmem : message.payloadId ∈ s.ids := by
    rw [hid]
    exact List.mem_map_of_mem (List.mem_of_getElem? get)
  have hearlier : ∀ (k : Nat) (found : PayloadJob Tx), s.jobs[k]? = some found →
      (s.sink.pipe.sent ++ [text]).take found.openedAt = s.sink.pipe.sent.take found.openedAt :=
    fun k found hk => List.take_append_of_le_length (hs.openedAt k found hk)
  refine ⟨hs.sink.handle published, fun k found hk => ?_, fun k found hk => ?_, fun id hnew => ?_,
    fun k found hk hunique => ?_⟩
  · rcases job_of_set hk with ⟨rfl, _⟩ | ⟨_, hold⟩
    · exact hlog
    · obtain ⟨log, hold⟩ := hs.refines k found hold
      exact ⟨log, hold.unpublished publisher⟩
  · have hle : found.openedAt ≤ s.sink.pipe.sent.length := by
      rcases job_of_set hk with ⟨rfl, _⟩ | ⟨_, hold⟩
      · exact hs.openedAt i job get
      · exact hs.openedAt k found hold
    simp only [Channel.send, List.length_append]
    omega
  · rw [hids] at hnew
    simp only [Channel.send]
    rw [PayloadJson.flashblocksOf_concat serialized, hs.known id hnew,
      if_neg (ne_of_mem_of_not_mem hmem hnew)]
    rfl
  · rw [Node.Unique, hids] at hunique
    simp only [Channel.send]
    rcases job_of_set hk with ⟨rfl, rfl⟩ | ⟨hne, hold⟩
    · have hcarried := hs.carried k job get hunique
      refine ⟨?_, ?_⟩
      · rw [PayloadJson.flashblocksOf_concat serialized, hcarried.1, if_pos hid]
      · rw [hearlier k job get]
        exact hcarried.2
    · have hcarried := hs.carried k found hold hunique
      refine ⟨?_, ?_⟩
      · rw [PayloadJson.flashblocksOf_concat serialized, hcarried.1,
          if_neg (hid ▸ id_ne get hold hunique hne), List.append_nil]
      · rw [hearlier k found hold]
        exact hcarried.2

omit [Encodable2718 Tx] in
theorem unique_of_append {id : PayloadId} {k : Nat} (hids : t.ids = s.ids ++ [id])
    (hk : k < s.ids.length) (h : t.Unique k) : s.Unique k := by
  intro l hl
  rw [List.getElem?_eq_getElem hk] at hl
  have hlt := (List.getElem?_eq_some_iff.mp hl).1
  refine h l ?_
  rw [hids, List.getElem?_append_left hlt, List.getElem?_append_left hk, hl,
    List.getElem?_eq_getElem hk]

omit [Encodable2718 Tx] in
theorem not_mem_of_unique {id : PayloadId} (hids : t.ids = s.ids ++ [id])
    (h : t.Unique s.ids.length) : id ∉ s.ids := by
  intro hmem
  obtain ⟨l, hl⟩ := List.mem_iff_getElem?.mp hmem
  have hlt := (List.getElem?_eq_some_iff.mp hl).1
  have hsame := h l (by rw [hids, List.getElem?_append_left hlt, hl, List.getElem?_concat_length])
  omega

/-- A job begins with nothing published. -/
theorem Invariant.opened (hs : Invariant json s) (publisher : PublishFlashblock)
    (ctx : BlockContext) (prologue : List (Extension Tx)) :
    Invariant json { s with
      publisher
      jobs := s.jobs ++ [{
        ctx
        payload := Payload.new.extendAll prologue
        openedAt := s.sink.pipe.sent.length }] } := by
  let job : PayloadJob Tx :=
    ⟨ctx, Payload.new.extendAll prologue, true, s.sink.pipe.sent.length, []⟩
  have hjob : ∀ (k : Nat) (found : PayloadJob Tx), (s.jobs ++ [job])[k]? = some found →
      k < s.ids.length ∧ s.jobs[k]? = some found ∨ k = s.ids.length ∧ found = job := by
    intro k found hk
    rw [Node.ids, List.length_map]
    rcases Nat.lt_trichotomy k s.jobs.length with hlt | rfl | hgt
    · rw [List.getElem?_append_left hlt] at hk
      exact .inl ⟨hlt, hk⟩
    · rw [List.getElem?_concat_length] at hk
      exact .inr ⟨rfl, (Option.some.inj hk).symm⟩
    · rw [List.getElem?_eq_none (by simpa [Nat.succ_le_iff] using hgt)] at hk
      cases hk
  have hids : Node.ids { s with publisher, jobs := s.jobs ++ [job] } = s.ids ++ [ctx.payloadId] := by
    simp [Node.ids, job]
  refine ⟨hs.sink, fun k found hk => ?_, fun k found hk => ?_, fun id hnew => ?_,
    fun k found hk hunique => ?_⟩
  · rcases hjob k found hk with ⟨_, hold⟩ | ⟨_, rfl⟩
    · obtain ⟨log, hold⟩ := hs.refines k found hold
      exact ⟨log, hold.unpublished publisher⟩
    · exact ⟨_, Refines.enter publisher prologue⟩
  · rcases hjob k found hk with ⟨_, hold⟩ | ⟨_, rfl⟩
    · exact hs.openedAt k found hold
    · exact Nat.le_refl _
  · refine hs.known id fun hmem => hnew ?_
    rw [hids]
    exact List.mem_append_left _ hmem
  · rcases hjob k found hk with ⟨hlt, hold⟩ | ⟨rfl, rfl⟩
    · exact hs.carried k found hold (unique_of_append hids hlt hunique)
    · have hnone := hs.known ctx.payloadId (not_mem_of_unique hids hunique)
      exact ⟨hnone, by rw [List.take_length]; exact hnone⟩

theorem Invariant.handle (hs : Invariant json s) {e : Event Tx} (h : s.handle json e = some t) :
    Invariant json t := by
  cases Node.transition_of_handle h with
  | opened => exact hs.opened _ _ _
  | @rewritten i job extensions get =>
    obtain ⟨log, hlog⟩ := hs.refines i job get
    exact hs.set { job with payload := job.payload.rewrite extensions } get rfl rfl rfl _
      ⟨_, hlog.rewrite extensions⟩
  | buildFailed => exact hs
  | rejected get =>
    refine ⟨hs.sink, fun k found hk => ?_, hs.openedAt, hs.known, hs.carried⟩
    obtain ⟨log, hold⟩ := hs.refines k found hk
    exact ⟨log, hold.unpublished _⟩
  | @accepted i call job sealedBlock withdrawalsRoot next text get handed serialized published
      next_eq =>
    obtain ⟨log, hlog⟩ := hs.refines i job get
    exact hs.sent get rfl serialized published _ ⟨_, hlog.published _ next_eq _ _ _ _⟩
  | @closed i now job get =>
    obtain ⟨log, hlog⟩ := hs.refines i job get
    exact hs.set { job with running := false } get rfl rfl rfl _ ⟨log, hlog.unpublished _⟩
  | @transported event sink unpublished handle =>
    have hpipe := pipe_of_handle unpublished handle
    refine ⟨hs.sink.handle handle, hs.refines, ?_, ?_, ?_⟩
    · rw [hpipe]
      exact hs.openedAt
    · rw [hpipe]
      exact hs.known
    · rw [hpipe]
      exact hs.carried

theorem invariant_of_run {events : List (Event Tx)}
    (h : run (Node.handle json) Node.new events = some s) : Invariant json s :=
  run_invariant (fun _ _ _ hs he => hs.handle he) invariant_new h

/-! ## What is published of a payload -/

variable {events : List (Event Tx)} {i : Nat} {job : PayloadJob Tx}

theorem accepted_indices (hs : Invariant json s) (get : s.jobs[i]? = some job) :
    job.accepted.map (fun m => m.index.toNat) = List.range job.accepted.length := by
  obtain ⟨log, hlog⟩ := hs.refines i job get
  exact hlog.indices

theorem accepted_transactions (hs : Invariant json s) (get : s.jobs[i]? = some job) :
    job.accepted.flatMap (fun m => m.diff.transactions) ++
        (Span.transactions (PublishFlashblock.unpublishedPayload job.payload)).map encoded2718 =
      job.payload.transactions.map encoded2718 := by
  obtain ⟨log, hlog⟩ := hs.refines i job get
  have hall : job.payload.transactions = log.committed.flatten ++ log.pending := hlog.contents_eq
  have hpending : log.pending =
      Span.transactions (PublishFlashblock.unpublishedPayload job.payload) := hlog.pending
  have hbatches : job.accepted.map (fun m => m.diff.transactions) =
      log.committed.map (List.map encoded2718) := hlog.batches
  rw [hall, List.map_append, List.map_flatten, ← hbatches, hpending, List.flatMap_def]

/-- **The channel carries each payload.** However the jobs overlap and the
peers come and go: what has been sent under the id of a payload is numbered
from zero without gaps, and its transactions followed by the unpublished ones
are the transactions of that payload. -/
theorem channel_partitions_payload (h : run (Node.handle json) Node.new events = some s)
    (get : s.jobs[i]? = some job) (hunique : s.Unique i) :
    let published := json.flashblocksOf job.ctx.payloadId s.sink.pipe.sent
    published.map (fun m => m.index.toNat) = List.range published.length ∧
      published.flatMap (fun m => m.diff.transactions) ++
          (Span.transactions (PublishFlashblock.unpublishedPayload job.payload)).map encoded2718 =
        job.payload.transactions.map encoded2718 := by
  have hs := invariant_of_run h
  have hcarried := (hs.carried i job get hunique).1
  intro published
  have hpublished : published = job.accepted := hcarried
  rw [hpublished]
  exact ⟨accepted_indices hs get, accepted_transactions hs get⟩

/-! Two jobs at once: the second begins while the first has published once. -/

def overlappingEvents : List (Event Bytes) :=
  [.beforeJob { (default : BlockContext) with payloadId := 1 } ⟨0⟩
      [.apply (.transaction [1]) 0 0], .step 0 .building,
    .beforeJob { (default : BlockContext) with payloadId := 2 } ⟨1⟩
      [.apply (.transaction [2]) 0 0],
    .rewrite 0 [.apply (.bundle [[3], [4]]) 0 0], .step 1 .building, .step 0 .building]

def flashblockOf (payloadId : PayloadId) (index : UInt64) (transactions : List Bytes)
    (base : Option OpFlashblockPayloadBase) : OpFlashblockPayload where
  base
  diff := { (default : OpFlashblockPayloadDelta) with transactions }
  payloadId
  index
  metadata := default

def overlappingMessages : List OpFlashblockPayload :=
  [flashblockOf 1 0 [[1]] (some default), flashblockOf 2 0 [[2]] (some default),
    flashblockOf 1 1 [[3], [4]] none]

theorem overlapping_differ :
    (overlappingMessages.map fun m => (PayloadJson.text m).take 64).Nodup := by
  decide +kernel

def overlappingJson : PayloadJson := .known overlappingMessages overlapping_differ

theorem overlapping_unique {s : Node Bytes} (hids : s.ids = [1, 2]) : s.Unique 0 := by
  rw [Node.Unique, hids]
  intro k hk
  match k with
  | 0 => rfl
  | 1 => simp at hk
  | k + 2 => simp at hk

theorem channel_partitions_payload_overlapping : ∃ s : Node Bytes, ∃ job,
    run (Node.handle overlappingJson) Node.new overlappingEvents = some s ∧
      s.jobs[0]? = some job ∧ job.payload.transactions = [[1], [3], [4]] ∧
      (overlappingJson.flashblocksOf job.ctx.payloadId s.sink.pipe.sent).flatMap
          (fun m => m.diff.transactions) ++
        (Span.transactions (PublishFlashblock.unpublishedPayload job.payload)).map encoded2718 =
          job.payload.transactions.map encoded2718 := by
  have hrun : ∃ s : Node Bytes,
      run (Node.handle overlappingJson) Node.new overlappingEvents = some s ∧
        (s.jobs.map (fun job => job.payload.transactions), s.ids) =
          ([[[1], [3], [4]], [[2]]], [1, 2]) :=
    exists_run (fun s => (s.jobs.map (fun job => job.payload.transactions), s.ids)) (by decide +kernel)
      fun s _ hv => hv
  obtain ⟨s, hs, hv⟩ := hrun
  obtain ⟨hpayloads, hids⟩ := Prod.mk.inj hv
  obtain ⟨job, rest, hjobs⟩ : ∃ job rest, s.jobs = job :: rest :=
    List.exists_cons_of_ne_nil fun hnil => by simp [hnil] at hpayloads
  have get : s.jobs[0]? = some job := by rw [hjobs]; rfl
  rw [hjobs, List.map_cons, List.cons.injEq] at hpayloads
  exact ⟨s, job, hs, get, hpayloads.1, (channel_partitions_payload hs get (overlapping_unique hids)).2⟩

end UnichainBuilder.ServiceChannel

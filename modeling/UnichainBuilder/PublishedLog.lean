import UnichainBuilder.Lib.CommitLog
import UnichainBuilder.Job

/-! # The published flashblocks are a log of the payload

A job refines the commit log: an accepted message commits the unpublished
transactions as one batch, a rewrite stages others in their place, and a
failed call does nothing. The link between the two is the position of the
last published barrier in the payload history, which the step finds through
the flashblock number stored in the checkpoints. -/
namespace UnichainBuilder.PublishedLog
open UnichainBuilder.Lib.RustStd UnichainBuilder.Lib.Runs UnichainBuilder.Lib.CommitLog
open UnichainBuilder.State UnichainBuilder.Block UnichainBuilder.Checkpoints
open UnichainBuilder.Publish UnichainBuilder.Job

variable {Tx : Type}

/-! ## Where the unpublished checkpoints begin -/

/-- The history is split at the barrier of the current flashblock: before it
only earlier flashblocks, from it on only the current one. -/
structure SplitAt (p : Payload Tx) (published : Span Tx) (barrier : Checkpoint Tx)
    (rest : Span Tx) : Prop where
  history : p.history = published ++ barrier :: rest
  isBarrier : barrier.isBarrier = true
  current : barrier.context = p.context
  earlier : ∀ c ∈ published, c.context.current.toNat < p.context.current.toNat
  inherited : ∀ c ∈ rest, c.context = p.context

namespace SplitAt
variable {p : Payload Tx} {published rest : Span Tx} {barrier : Checkpoint Tx}

theorem unpublishedPayload_eq (h : SplitAt p published barrier rest) :
    PublishFlashblock.unpublishedPayload p = barrier :: rest := by
  have hpre : ∀ c ∈ published, c.context ≠ p.context := by
    intro c hc he
    have := h.earlier c hc
    rw [he] at this
    omega
  rw [PublishFlashblock.unpublishedPayload,
    Payload.historySinceFirstContext_eq h.history hpre h.current]
  rfl

theorem transactions_eq (h : SplitAt p published barrier rest) :
    p.transactions = Span.transactions published ++
      Span.transactions (PublishFlashblock.unpublishedPayload p) := by
  rw [h.unpublishedPayload_eq, Payload.transactions, h.history, Span.transactions_append]

/-- The payload the flashblocks loop starts from has nothing published. -/
theorem enter (prologue : List (Extension Tx)) :
    ∃ rest, SplitAt (Payload.new.extendAll prologue) [] Checkpoint.root rest := by
  obtain ⟨tail, hh, ht, hc⟩ := Payload.extendAll_spec prologue (Payload.new : Payload Tx)
  exact ⟨tail, {
    history := hh
    isBarrier := rfl
    current := hc.symm
    earlier := by simp
    inherited := fun c hm => (ht c hm).trans hc.symm }⟩

theorem context_lastBarrier (h : SplitAt p published barrier rest) :
    p.lastBarrier.context = p.context := by
  obtain ⟨kept, hk, hl⟩ := Payload.lastBarrier_history h.history h.isBarrier
  have htip : p.lastBarrier.tip ∈ barrier :: kept := by
    have : p.lastBarrier.history.getLast? = some p.lastBarrier.tip :=
      List.getLast?_eq_some_getLast _
    rw [hl, List.getLast?_append_of_ne_nil _ (List.cons_ne_nil _ _)] at this
    exact List.mem_of_getLast? this
  rcases List.mem_cons.mp htip with he | hm
  · exact (congrArg Checkpoint.context he).trans h.current
  · exact h.inherited _ (hk.subset hm)

theorem context_rewrite (h : SplitAt p published barrier rest) (es : List (Extension Tx)) :
    (p.rewrite es).context = p.context := by
  obtain ⟨_, _, _, hc⟩ := Payload.extendAll_spec es p.lastBarrier
  exact hc.trans h.context_lastBarrier

/-- Rewriting what follows the last barrier keeps the split. -/
theorem rewrite (h : SplitAt p published barrier rest) (es : List (Extension Tx)) :
    ∃ rest', SplitAt (p.rewrite es) published barrier rest' := by
  obtain ⟨kept, hk, hl⟩ := Payload.lastBarrier_history h.history h.isBarrier
  obtain ⟨tail, hh, ht, _⟩ := Payload.extendAll_spec es p.lastBarrier
  have hctx := h.context_rewrite es
  refine ⟨kept ++ tail, ?_⟩
  constructor
  · rw [Payload.rewrite, hh, hl, List.append_assoc, List.cons_append]
  · exact h.isBarrier
  · rw [hctx]; exact h.current
  · rw [hctx]; exact h.earlier
  · intro c hm
    rw [hctx]
    rcases List.mem_append.mp hm with hm | hm
    · exact h.inherited c (hk.subset hm)
    · exact (ht c hm).trans h.context_lastBarrier

/-- Sealing the payload moves the split to its end. -/
theorem barrierWithContext (h : SplitAt p published barrier rest) {next : FlashblockNumber}
    (hn : p.context.next = .ok next) :
    SplitAt (p.barrierWithContext next) p.history ⟨.barrier, next⟩ [] := by
  have hlt := FlashblockNumber.toNat_of_next hn
  constructor
  · rfl
  · rfl
  · rw [Payload.context_barrierWithContext]
  · intro c hm
    rw [Payload.context_barrierWithContext, hlt]
    rw [h.history] at hm
    rcases List.mem_append.mp hm with hm | hm
    · have := h.earlier c hm; omega
    · rcases List.mem_cons.mp hm with rfl | hm
      · rw [h.current]; omega
      · rw [h.inherited c hm]; omega
  · simp

end SplitAt

/-! ## The refinement -/

variable [Encodable2718 Tx]

/-- The job shows the log: the checkpoints before the current flashblock hold
the committed batches, those from it on the pending tail, and the accepted
messages are the batches, numbered from zero. -/
structure Refines (s : JobState Tx) (log : Log Tx) : Prop where
  split : ∃ published barrier rest, SplitAt s.payload published barrier rest ∧
    Span.transactions published = log.committed.flatten
  pending : log.pending = Span.transactions (PublishFlashblock.unpublishedPayload s.payload)
  batches : s.accepted.map (fun m => m.diff.transactions) =
    log.committed.map (List.map encoded2718)
  indices : s.accepted.map (fun m => m.index.toNat) = List.range s.accepted.length
  counter : s.payload.context.current.toNat = s.accepted.length + 1

namespace Refines
variable {s t : JobState Tx} {log : Log Tx} {ctx : BlockContext}

theorem contents_eq (h : Refines s log) : s.payload.transactions = log.contents := by
  obtain ⟨published, barrier, rest, hsplit, hpub⟩ := h.split
  rw [hsplit.transactions_eq, hpub, Log.contents, h.pending]

theorem enter (publisher : PublishFlashblock) (prologue : List (Extension Tx)) :
    Refines (JobState.enter publisher prologue) ⟨[], Span.transactions
      (PublishFlashblock.unpublishedPayload (Payload.new.extendAll prologue))⟩ := by
  obtain ⟨rest, hsplit⟩ := SplitAt.enter prologue
  obtain ⟨_, _, _, hc⟩ := Payload.extendAll_spec prologue (Payload.new : Payload Tx)
  constructor
  · exact ⟨[], _, rest, hsplit, rfl⟩
  · rfl
  · rfl
  · rfl
  · rw [JobState.enter, hc]; rfl

theorem rewrite (h : Refines s log) (es : List (Extension Tx)) :
    Refines { s with payload := s.payload.rewrite es } (log.apply (.stage
      (Span.transactions (PublishFlashblock.unpublishedPayload (s.payload.rewrite es))))) := by
  obtain ⟨published, barrier, rest, hsplit, hpub⟩ := h.split
  obtain ⟨rest', hsplit'⟩ := hsplit.rewrite es
  constructor
  · exact ⟨published, barrier, rest', hsplit', hpub⟩
  · rfl
  · exact h.batches
  · exact h.indices
  · rw [hsplit.context_rewrite es]; exact h.counter

/-- A call that does not publish leaves payload and messages alone. -/
theorem unpublished (h : Refines s log) (publisher : PublishFlashblock) :
    Refines { s with publisher } log := ⟨h.split, h.pending, h.batches, h.indices, h.counter⟩

theorem published (h : Refines s log) (publisher : PublishFlashblock) {next : FlashblockNumber}
    (hn : s.payload.context.next = .ok next) (sealedBlock : SealedBlock) (withdrawalsRoot : B256)
    (blobGasUsed : Option UInt64) (base : Option OpFlashblockPayloadBase) :
    Refines {
      publisher
      payload := s.payload.barrierWithContext next
      accepted := s.accepted ++ [PublishFlashblock.message s.payload ctx sealedBlock
        withdrawalsRoot blobGasUsed base] } (log.apply .commit) := by
  obtain ⟨published, barrier, rest, hsplit, hpub⟩ := h.split
  have hsealed := hsplit.barrierWithContext hn
  have hcommitted : s.payload.transactions = (log.apply .commit).committed.flatten :=
    calc s.payload.transactions = log.contents := h.contents_eq
      _ = (log.apply .commit).contents := (Log.contents_commit log).symm
      _ = (log.apply .commit).committed.flatten := List.append_nil _
  constructor
  · exact ⟨_, _, _, hsealed, hcommitted⟩
  · rw [hsealed.unpublishedPayload_eq, Span.transactions_singleton_barrier rfl]; rfl
  · rw [List.map_append, h.batches, Log.apply, List.map_append, h.pending]; rfl
  · have hindex : s.payload.context.index.toNat = s.accepted.length := by
      rw [FlashblockNumber.toNat_index, h.counter, Nat.add_sub_cancel]
    rw [List.map_append, h.indices, List.length_append]
    simp [PublishFlashblock.message, hindex, List.range_succ]
  · rw [Payload.context_barrierWithContext, FlashblockNumber.toNat_of_next hn, h.counter,
      List.length_append]
    rfl

/-- One event is matched by at most one operation of the log. -/
theorem handle (h : Refines s log) {e : JobEvent Tx} (he : s.handle ctx e = some t) :
    ∃ ops : List (Op Tx), Refines t (ops.foldl Log.apply log) := by
  cases e with
  | rewrite es =>
    cases he
    exact ⟨[.stage _], h.rewrite es⟩
  | step env =>
    obtain ⟨r, hr, rfl⟩ := JobState.handle_step_eq_some.mp he
    cases PublishFlashblock.returns_of_step hr with
    | buildFailed =>
      refine ⟨[], ?_⟩
      simpa using h.unpublished s.publisher
    | rejected =>
      refine ⟨[], ?_⟩
      simpa using h.unpublished _
    | accepted build root publish next_eq =>
      exact ⟨[.commit], h.published _ next_eq _ _ _ _⟩

end Refines

/-- Every run of a job from the entry of the flashblocks loop shows a log. -/
theorem refines_of_run {ctx : BlockContext} {publisher : PublishFlashblock}
    {prologue : List (Extension Tx)} {events : List (JobEvent Tx)} {s : JobState Tx}
    (h : run (JobState.handle ctx) (JobState.enter publisher prologue) events = some s) :
    ∃ log, Refines s log := by
  obtain ⟨ops, hops⟩ := run_simulates (fun _ _ _ _ hs he => hs.handle he)
    (Refines.enter publisher prologue) h
  exact ⟨_, hops⟩

/-- **The accepted flashblocks partition the payload.** Whatever was rewritten
and whichever messages were rejected, the accepted ones are numbered from
zero without gaps, and their transactions followed by the unpublished ones
are the transactions of the payload: as encoded in the messages, and as the
batches of transactions that were encoded. -/
theorem accepted_partition_payload {ctx : BlockContext} {publisher : PublishFlashblock}
    {prologue : List (Extension Tx)} {events : List (JobEvent Tx)} {s : JobState Tx}
    (h : run (JobState.handle ctx) (JobState.enter publisher prologue) events = some s) :
    (∀ (j : Nat) (m : OpFlashblockPayload), s.accepted[j]? = some m → m.index.toNat = j) ∧
    s.accepted.flatMap (fun m => m.diff.transactions) ++
        (Span.transactions (PublishFlashblock.unpublishedPayload s.payload)).map encoded2718 =
      s.payload.transactions.map encoded2718 ∧
    ∃ batches : List (List Tx),
      s.accepted.map (fun m => m.diff.transactions) = batches.map (List.map encoded2718) ∧
      batches.flatten ++ Span.transactions (PublishFlashblock.unpublishedPayload s.payload) =
        s.payload.transactions := by
  obtain ⟨log, hlog⟩ := refines_of_run h
  have hall : log.committed.flatten ++
      Span.transactions (PublishFlashblock.unpublishedPayload s.payload) =
        s.payload.transactions := by
    rw [hlog.contents_eq, Log.contents, hlog.pending]
  refine ⟨?_, ?_, log.committed, hlog.batches, hall⟩
  · intro j m hj
    obtain ⟨hlt, rfl⟩ := List.getElem?_eq_some_iff.mp hj
    have hmap := congrArg (fun l => l[j]?) hlog.indices
    simpa [hlt] using hmap
  · rw [← hall, List.map_append, List.map_flatten, ← hlog.batches, List.flatMap_def]

/-- Two messages around a rejected one, the payload rewritten in between. -/
def retryEvents : List (JobEvent Bytes) :=
  [.step (.withSink (.ok 0)), .rewrite [.apply (.transaction [2]) 0 0],
    .step (.withSink (.error "closed")), .rewrite [.apply (.bundle [[3], [2]]) 0 0],
    .step (.withSink (.ok 0)), .rewrite [.apply (.transaction [4]) 0 0]]

theorem accepted_partition_payload_retry :
    ∃ s : JobState Bytes,
      run (JobState.handle default) (JobState.enter {} [.apply (.transaction [1]) 0 0])
        retryEvents = some s ∧
      s.accepted.flatMap (fun m => m.diff.transactions) ++
          (Span.transactions (PublishFlashblock.unpublishedPayload s.payload)).map encoded2718 =
        s.payload.transactions.map encoded2718 := by
  exact exists_run (fun s => s.accepted.length) (v := 2) rfl
    fun s hs _ => (accepted_partition_payload hs).2.1

example : (run (JobState.handle default) (JobState.enter {} [.apply (.transaction [1]) 0 0])
    retryEvents).map (fun s => s.accepted.map fun m => m.diff.transactions) =
      some [[[1]], [[3], [2]]] := rfl

/-- **What was published is never taken back.** The transactions of the
messages accepted so far begin the payload from then on. -/
theorem published_prefix {ctx : BlockContext} {publisher : PublishFlashblock}
    {prologue : List (Extension Tx)} {before after : List (JobEvent Tx)} {s t : JobState Tx}
    (hs : run (JobState.handle ctx) (JobState.enter publisher prologue) before = some s)
    (ht : run (JobState.handle ctx) s after = some t) :
    s.accepted.flatMap (fun m => m.diff.transactions) <+:
      t.payload.transactions.map encoded2718 := by
  obtain ⟨log, hlog⟩ := refines_of_run hs
  obtain ⟨ops, hops⟩ := run_simulates (fun _ _ _ _ hs he => Refines.handle hs he) hlog ht
  obtain ⟨more, hmore⟩ := Log.committed_prefix_applyAll log ops
  rw [Log.applyAll] at hmore
  have hflat : s.accepted.flatMap (fun m => m.diff.transactions) =
      log.committed.flatten.map encoded2718 := by
    rw [List.map_flatten, ← hlog.batches, List.flatMap_def]
  rw [hflat, hops.contents_eq, Log.contents, ← hmore, List.flatten_append,
    List.append_assoc, List.map_append]
  exact List.prefix_append _ _

end UnichainBuilder.PublishedLog

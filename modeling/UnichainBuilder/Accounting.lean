import Mathlib.Algebra.BigOperators.Group.List.Basic
import UnichainBuilder.ServiceChannel

/-! # What the metrics add up to

`capture_payload_metrics` records each published flashblock once. Over a run
the counter and the histograms account for the channel and for the published
part of every payload. -/
namespace UnichainBuilder.Accounting
open UnichainBuilder.Lib.RustStd UnichainBuilder.Lib.Runs UnichainBuilder.Lib.Broadcast
open UnichainBuilder.Block UnichainBuilder.State UnichainBuilder.Timing
open UnichainBuilder.Checkpoints UnichainBuilder.Publish UnichainBuilder.Job
open UnichainBuilder.PublishedLog UnichainBuilder.Service UnichainBuilder.ServiceChannel

variable {Tx : Type}

/-! ## Weights of checkpoints -/

/-- Something that checkpoints have and barriers do not. -/
structure Weight (Tx : Type) where
  weight : Checkpoint Tx → Nat
  of_isBarrier : ∀ {c}, c.isBarrier = true → weight c = 0

namespace Weight

def total (w : Weight Tx) (span : Span Tx) : Nat := (span.map w.weight).sum

theorem total_append (w : Weight Tx) (span span' : Span Tx) :
    w.total (span ++ span') = w.total span + w.total span' := by
  rw [total, List.map_append, List.sum_append]
  rfl

def gasUsed : Weight Tx where
  weight := Checkpoint.gasUsed
  of_isBarrier h := by rw [Checkpoint.gasUsed, Checkpoint.mutation_of_isBarrier h]

def blobGasUsed : Weight Tx where
  weight := Checkpoint.blobGasUsed
  of_isBarrier h := by rw [Checkpoint.blobGasUsed, Checkpoint.mutation_of_isBarrier h]

def bundles : Weight Tx where
  weight c := if c.isBundle then 1 else 0
  of_isBarrier h := by
    rw [Checkpoint.isBundle, Checkpoint.mutation_of_isBarrier h]
    rfl

theorem foldl_add_eq_sum (f : Checkpoint Tx → Nat) (span : Span Tx) (n : Nat) :
    span.foldl (fun sum c => sum + f c) n = n + (span.map f).sum := by
  induction span generalizing n with
  | nil => rfl
  | cons c span ih =>
    rw [List.foldl_cons, ih, List.map_cons, List.sum_cons, Nat.add_assoc]

theorem gasUsed_eq_total (span : Span Tx) : Span.gasUsed span = gasUsed.total span := by
  rw [Span.gasUsed, foldl_add_eq_sum, Nat.zero_add]
  rfl

theorem blobGasUsed_eq_total (span : Span Tx) : Span.blobGasUsed span = blobGasUsed.total span := by
  rw [Span.blobGasUsed, foldl_add_eq_sum, Nat.zero_add]
  rfl

theorem bundles_eq_total (span : Span Tx) :
    (span.filter Checkpoint.isBundle).length = bundles.total span := by
  induction span with
  | nil => rfl
  | cons c span ih =>
    rw [List.filter_cons, total, List.map_cons, List.sum_cons, ← total, ← ih]
    cases hc : c.isBundle <;> simp [bundles, hc, Nat.add_comm]

/-- What has been published of a payload weighs. -/
def published (w : Weight Tx) (payload : Payload Tx) : Nat :=
  w.total payload.history - w.total (PublishFlashblock.unpublishedPayload payload)

variable {w : Weight Tx} {p : Payload Tx} {before rest : Span Tx} {barrier : Checkpoint Tx}

theorem total_history (h : SplitAt p before barrier rest) :
    w.total p.history =
      w.total before + w.total (PublishFlashblock.unpublishedPayload p) := by
  rw [h.unpublishedPayload_eq, h.history, total_append]

theorem published_eq (h : SplitAt p before barrier rest) : w.published p = w.total before := by
  rw [published, total_history h, Nat.add_sub_cancel]

theorem published_add (h : SplitAt p before barrier rest) :
    w.published p + w.total (PublishFlashblock.unpublishedPayload p) = w.total p.history := by
  rw [published_eq h, total_history h]

theorem published_rewrite (h : SplitAt p before barrier rest) (es : List (Extension Tx)) :
    w.published (p.rewrite es) = w.published p := by
  obtain ⟨rest', h'⟩ := h.rewrite es
  rw [published_eq h', published_eq h]

/-- Sealing a payload publishes what was not. -/
theorem published_barrier (h : SplitAt p before barrier rest) {next : FlashblockNumber}
    (hnext : p.context.next = .ok next) :
    w.published (p.barrierWithContext next) =
      w.published p + w.total (PublishFlashblock.unpublishedPayload p) := by
  rw [published_eq (h.barrierWithContext hnext), published_add h]

theorem published_enter (w : Weight Tx) (prologue : List (Extension Tx)) :
    w.published (Payload.new.extendAll prologue) = 0 := by
  obtain ⟨rest, h⟩ := SplitAt.enter prologue
  rw [published_eq h]
  rfl

end Weight

/-! ## The books of the node -/

variable {json : PayloadJson}

/-- The samples of a histogram add up to what has been published. -/
def Balanced (w : Weight Tx) (samples : List Nat) (jobs : List (PayloadJob Tx)) : Prop :=
  samples.sum = (jobs.map fun job => w.published job.payload).sum

/-- The metrics account for the channel and for the jobs. -/
structure Booked (json : PayloadJson) (metrics : Metrics) (sent : List Utf8Bytes)
    (jobs : List (PayloadJob Tx)) : Prop where
  blocks : metrics.blocksTotal = sent.length
  txs : metrics.txsPerBlock =
    (sent.filterMap json.fromStr).map fun m => m.diff.transactions.length
  gas : Balanced .gasUsed metrics.gasPerBlock jobs
  blobGas : Balanced .blobGasUsed metrics.blobGasPerBlock jobs
  bundles : Balanced .bundles metrics.bundlesPerBlock jobs

theorem sum_map_set {α : Type} (f : α → Nat) {l : List α} {i : Nat} {a b : α} {n : Nat}
    (get : l[i]? = some a) (hb : f b = f a + n) :
    ((l.set i b).map f).sum = (l.map f).sum + n := by
  induction l generalizing i with
  | nil => cases get
  | cons x l ih =>
    cases i with
    | zero =>
      cases get
      simp only [List.set_cons_zero, List.map_cons, List.sum_cons, hb]
      omega
    | succ i =>
      simp only [List.set_cons_succ, List.map_cons, List.sum_cons, ih get]
      omega

/-- Nothing published, whatever else happens to a job. -/
theorem Balanced.set {w : Weight Tx} {samples : List Nat} {jobs : List (PayloadJob Tx)} {i : Nat}
    {job job' : PayloadJob Tx} (h : Balanced w samples jobs) (get : jobs[i]? = some job)
    (hsame : w.published job'.payload = w.published job.payload) :
    Balanced w samples (jobs.set i job') := by
  rw [Balanced, sum_map_set (n := 0) (fun job => w.published job.payload) get hsame]
  exact h

theorem Balanced.record {w : Weight Tx} {samples : List Nat} {jobs : List (PayloadJob Tx)} {i : Nat}
    {sample : Nat} {job job' : PayloadJob Tx} (h : Balanced w samples jobs)
    (get : jobs[i]? = some job)
    (hmore : w.published job'.payload = w.published job.payload + sample) :
    Balanced w (record samples sample) (jobs.set i job') := by
  rw [Balanced, sum_map_set (fun job => w.published job.payload) get hmore, ← h, Timing.record,
    List.sum_append, List.sum_singleton]

theorem Booked.set {metrics : Metrics} {sent : List Utf8Bytes} {jobs : List (PayloadJob Tx)}
    {i : Nat} {job job' : PayloadJob Tx} (h : Booked json metrics sent jobs)
    (get : jobs[i]? = some job)
    (hsame : ∀ w : Weight Tx, w.published job'.payload = w.published job.payload) :
    Booked json metrics sent (jobs.set i job') :=
  ⟨h.blocks, h.txs, h.gas.set get (hsame _), h.blobGas.set get (hsame _),
    h.bundles.set get (hsame _)⟩

theorem Booked.opened {metrics : Metrics} {sent : List Utf8Bytes} {jobs : List (PayloadJob Tx)}
    {job : PayloadJob Tx} (h : Booked json metrics sent jobs)
    (hnone : ∀ w : Weight Tx, w.published job.payload = 0) :
    Booked json metrics sent (jobs ++ [job]) := by
  have hbalanced : ∀ {w : Weight Tx} {samples : List Nat}, Balanced w samples jobs →
      Balanced w samples (jobs ++ [job]) := by
    intro w samples hw
    rw [Balanced, List.map_append, List.sum_append, List.map_singleton, List.sum_singleton, hnone,
      Nat.add_zero]
    exact hw
  exact ⟨h.blocks, h.txs, hbalanced h.gas, hbalanced h.blobGas, hbalanced h.bundles⟩

/-- One flashblock is booked: in the channel and in its own payload. -/
theorem Booked.record {metrics : Metrics} {sent : List Utf8Bytes} {jobs : List (PayloadJob Tx)}
    {i : Nat} {job job' : PayloadJob Tx} {message : OpFlashblockPayload} {text : Utf8Bytes}
    {span : Span Tx} (h : Booked json metrics sent jobs) (get : jobs[i]? = some job)
    (serialized : json.toString message = .ok text)
    (htxs : message.diff.transactions.length = (Span.transactions span).length)
    (hmore : ∀ w : Weight Tx,
      w.published job'.payload = w.published job.payload + w.total span) :
    Booked json (PublishFlashblock.capturePayloadMetrics metrics span) (sent ++ [text])
      (jobs.set i job') := by
  refine ⟨?_, ?_, ?_, ?_, ?_⟩
  · rw [List.length_append, ← h.blocks]
    rfl
  · rw [List.filterMap_append, List.map_append, ← h.txs]
    simp [PublishFlashblock.capturePayloadMetrics, Timing.record, json.fromStr_toString serialized,
      htxs]
  · have hgas := h.gas.record get (hmore .gasUsed)
    rw [← Weight.gasUsed_eq_total] at hgas
    exact hgas
  · have hgas := h.blobGas.record get (hmore .blobGasUsed)
    rw [← Weight.blobGasUsed_eq_total] at hgas
    exact hgas
  · have hbundles := h.bundles.record get (hmore .bundles)
    rw [← Weight.bundles_eq_total] at hbundles
    exact hbundles

variable [Encodable2718 Tx] {s t : Node Tx}

/-- The books, apart from the intervals. -/
def NodeBooked (json : PayloadJson) (s : Node Tx) : Prop :=
  Booked json s.publisher.metrics.untimed s.sink.pipe.sent s.jobs

theorem split_of_invariant (hs : Invariant json s) {i : Nat} {job : PayloadJob Tx}
    (get : s.jobs[i]? = some job) : ∃ published barrier rest,
      SplitAt job.payload published barrier rest := by
  obtain ⟨log, hlog⟩ := hs.refines i job get
  obtain ⟨published, barrier, rest, hsplit, _⟩ := hlog.split
  exact ⟨published, barrier, rest, hsplit⟩

theorem NodeBooked.handle {e : Event Tx} (hs : Invariant json s) (hb : NodeBooked json s)
    (h : s.handle json e = some t) : NodeBooked json t := by
  unfold NodeBooked at hb ⊢
  cases Node.transition_of_handle h with
  | @opened ctx now prologue =>
    have hmetrics : (s.publisher.beforeJob ctx now).metrics.untimed =
        s.publisher.metrics.untimed := s.publisher.times.untimed_onJobStarted _ now
    rw [hmetrics]
    exact hb.opened fun w => w.published_enter prologue
  | @rewritten i job extensions get =>
    obtain ⟨_, _, _, hsplit⟩ := split_of_invariant hs get
    exact hb.set get fun w => Weight.published_rewrite hsplit extensions
  | buildFailed => exact hb
  | rejected => exact ⟨hb.blocks, hb.txs, hb.gas, hb.blobGas, hb.bundles⟩
  | @accepted i call job sealedBlock withdrawalsRoot next text get handed serialized published
      next_eq =>
    obtain ⟨_, _, _, hsplit⟩ := split_of_invariant hs get
    have huntimed := s.publisher.times.untimed_onPublishedBlock s.publisher.metrics call.now
    rw [← huntimed] at hb
    exact hb.record get serialized (by simp [PublishFlashblock.message]) fun w =>
      Weight.published_barrier hsplit next_eq
  | @closed i now job get =>
    have hmetrics : (s.publisher.afterJob now).metrics.untimed =
        s.publisher.metrics.untimed := s.publisher.times.untimed_onJobEnded _ now
    rw [hmetrics]
    exact hb.set get fun _ => rfl
  | transported unpublished handle =>
    rw [pipe_of_handle unpublished handle]
    exact hb

/-- The gas, or whatever else, of the payloads of some jobs. -/
def total (w : Weight Tx) (span : Payload Tx → Span Tx) (jobs : List (PayloadJob Tx)) : Nat :=
  (jobs.map fun job => w.total (span job.payload)).sum

end UnichainBuilder.Accounting

import UnichainBuilder.EligibilityWindow
import UnichainBuilder.PublishedLog

/-! # The windows of a bundle on the wire

A bundle says in which flashblocks it may be included; a client sees in which
it was. Between the two stand a check before each order is applied, steps that
reorder and drop what is not published yet, messages that the sink rejects,
and the number that counts accepted messages only. -/
namespace UnichainBuilder.BundleInclusion
open UnichainBuilder.Lib.Bound UnichainBuilder.Lib.Runs UnichainBuilder.Lib.CommitLog
open UnichainBuilder.State UnichainBuilder.Block UnichainBuilder.Checkpoints
open UnichainBuilder.Publish UnichainBuilder.Job UnichainBuilder.PublishedLog
open UnichainBuilder.Bundle UnichainBuilder.EligibilityWindow

/-- A transaction with the bundle that brought it, if one did. -/
structure Sourced (Tx : Type) where
  tx : Tx
  bundle : Option (FlashblocksBundle Tx) := none

instance {Tx : Type} [Encodable2718 Tx] : Encodable2718 (Sourced Tx) := ⟨fun s => encoded2718 s.tx⟩

variable {Tx : Type}

/-- What `AppendOrders` asks before it applies an order: the bundle is
eligible at the flashblock number of the payload. -/
def Checked (ctx : BlockContext) (n : FlashblockNumber) (e : Extension (Sourced Tx)) : Prop :=
  ∀ tx ∈ e.transactions, ∀ b ∈ tx.bundle, b.isEligible ctx n = .eligible

/-- Every order that an event applies was checked where it is applied. -/
def Checks (ctx : BlockContext) (s : JobState (Sourced Tx)) : JobEvent (Sourced Tx) → Prop
  | .rewrite extensions => ∀ e ∈ extensions, Checked ctx s.payload.context e
  | .step _ => True

instance (ctx : BlockContext) (n : FlashblockNumber) (e : Extension (Sourced Tx)) :
    Decidable (Checked ctx n e) :=
  inferInstanceAs (Decidable (∀ tx ∈ e.transactions, ∀ b ∈ tx.bundle,
    b.isEligible ctx n = .eligible))

instance (ctx : BlockContext) (s : JobState (Sourced Tx)) :
    ∀ e, Decidable (Checks ctx s e)
  | .rewrite extensions =>
    inferInstanceAs (Decidable (∀ e ∈ extensions, Checked ctx s.payload.context e))
  | .step _ => isTrue trivial

/-- The bundle of a transaction is eligible in the flashblock of this index. -/
def EligibleAt (ctx : BlockContext) (index : Nat) (tx : Sourced Tx) : Prop :=
  ∀ b ∈ tx.bundle, ∃ n : FlashblockNumber, n.current.toNat = index + 1 ∧
    b.isEligible ctx n = .eligible

/-! ## What is not published yet -/

theorem unpublished_rewrite {p : Payload Tx} {published rest : Span Tx} {barrier : Checkpoint Tx}
    (h : SplitAt p published barrier rest) (es : List (Extension Tx)) :
    ∃ kept, kept <+: rest ∧ PublishFlashblock.unpublishedPayload (p.rewrite es) =
      barrier :: (kept ++ es.map fun e => ⟨e.mutation, p.context⟩) := by
  obtain ⟨kept, hkept, hlast⟩ := Payload.lastBarrier_history h.history h.isBarrier
  obtain ⟨rest', hsplit⟩ := h.rewrite es
  refine ⟨kept, hkept, ?_⟩
  have hhistory : (p.rewrite es).history =
      published ++ barrier :: (kept ++ es.map fun e => ⟨e.mutation, p.context⟩) := by
    rw [Payload.rewrite, Payload.history_extendAll, h.context_lastBarrier, hlast,
      List.append_assoc, List.cons_append]
  rw [hsplit.unpublishedPayload_eq]
  exact List.append_cancel_left (hsplit.history.symm.trans hhistory)

/-- A rewrite leaves transactions that were there or adds those of its orders. -/
theorem mem_unpublished_rewrite {p : Payload Tx} {published rest : Span Tx}
    {barrier : Checkpoint Tx} (h : SplitAt p published barrier rest) {es : List (Extension Tx)}
    {tx : Tx} (htx : tx ∈ Span.transactions (PublishFlashblock.unpublishedPayload (p.rewrite es))) :
    tx ∈ Span.transactions (PublishFlashblock.unpublishedPayload p) ∨
      ∃ e ∈ es, tx ∈ e.transactions := by
  obtain ⟨kept, hkept, hrewrite⟩ := unpublished_rewrite h es
  rw [hrewrite] at htx
  rw [h.unpublishedPayload_eq]
  obtain ⟨c, hc, htx⟩ := List.mem_flatMap.mp htx
  rw [← List.cons_append, List.mem_append, List.mem_map] at hc
  rcases hc with hc | ⟨e, he, rfl⟩
  · left
    refine List.mem_flatMap.mpr ⟨c, ?_, htx⟩
    rcases List.mem_cons.mp hc with rfl | hc
    · exact List.mem_cons_self
    · exact List.mem_cons_of_mem _ (hkept.subset hc)
  · exact .inr ⟨e, he, htx⟩

/-! ## Along a job -/

variable [Encodable2718 Tx] {ctx : BlockContext}

/-- The job shows a log of transactions that are where their bundles may be. -/
structure Shows (ctx : BlockContext) (s : JobState (Sourced Tx)) (log : Log (Sourced Tx)) :
    Prop where
  refines : Refines s log
  numbered : log.Numbered (EligibleAt ctx)

namespace Shows
variable {s t : JobState (Sourced Tx)} {log : Log (Sourced Tx)}

theorem length_committed (h : Refines s log) : log.committed.length = s.accepted.length := by
  have hlength := congrArg List.length h.batches
  rw [List.length_map, List.length_map] at hlength
  exact hlength.symm

/-- A checked order is eligible in the message that comes next. -/
theorem eligibleAt_of_checked (h : Refines s log) {e : Extension (Sourced Tx)}
    (hchecked : Checked ctx s.payload.context e) {tx : Sourced Tx} (htx : tx ∈ e.transactions) :
    EligibleAt ctx log.committed.length tx := by
  intro b hb
  refine ⟨s.payload.context, ?_, hchecked tx htx b hb⟩
  rw [length_committed h, h.counter]

theorem enter (publisher : PublishFlashblock) {prologue : List (Extension (Sourced Tx))}
    (hprologue : ∀ e ∈ prologue, Checked ctx .new e) :
    ∃ log, Shows ctx (JobState.enter publisher prologue) log := by
  obtain ⟨rest, hsplit⟩ := SplitAt.enter ([] : List (Extension (Sourced Tx)))
  have hrefines := Refines.enter publisher prologue
  refine ⟨_, hrefines, ⟨fun j batch hj => by simp at hj, fun tx htx => ?_⟩⟩
  -- the loop is entered as if the prologue had rewritten the root
  have hsame : (Payload.new : Payload (Sourced Tx)).rewrite prologue =
      Payload.new.extendAll prologue := rfl
  rw [← hsame] at htx
  rcases mem_unpublished_rewrite hsplit htx with hroot | ⟨e, he, htx⟩
  · cases hroot
  · intro b hb
    exact ⟨.new, rfl, hprologue e he tx htx b hb⟩

theorem handle (h : Shows ctx s log) {e : JobEvent (Sourced Tx)} (hchecks : Checks ctx s e)
    (he : s.handle ctx e = some t) : ∃ log, Shows ctx t log := by
  cases e with
  | rewrite es =>
    cases he
    refine ⟨_, h.refines.rewrite es, h.numbered.stage fun tx htx => ?_⟩
    obtain ⟨published, barrier, rest, hsplit, -⟩ := h.refines.split
    rcases mem_unpublished_rewrite hsplit htx with hold | ⟨e, he, htx⟩
    · rw [← h.refines.pending] at hold
      exact h.numbered.pending tx hold
    · exact eligibleAt_of_checked h.refines (hchecks e he) htx
  | step env =>
    obtain ⟨r, hr, rfl⟩ := JobState.handle_step_eq_some.mp he
    cases PublishFlashblock.returns_of_step hr with
    | buildFailed =>
      refine ⟨log, ?_, h.numbered⟩
      simpa using h.refines.unpublished s.publisher
    | rejected =>
      refine ⟨log, ?_, h.numbered⟩
      simpa using h.refines.unpublished _
    | accepted build root publish next_eq =>
      exact ⟨_, h.refines.published _ next_eq _ _ _ _, h.numbered.commit⟩

end Shows

theorem shows_of_run {publisher : PublishFlashblock} {prologue : List (Extension (Sourced Tx))}
    {events : List (JobEvent (Sourced Tx))} {s : JobState (Sourced Tx)}
    (hprologue : ∀ e ∈ prologue, Checked ctx .new e)
    (hchecks : Along (JobState.handle ctx) (Checks ctx) (JobState.enter publisher prologue) events)
    (hrun : run (JobState.handle ctx) (JobState.enter publisher prologue) events = some s) :
    ∃ log, Shows ctx s log := by
  have hstep : ∀ (s : JobState (Sourced Tx)) e t, (∃ log, Shows ctx s log) → Checks ctx s e →
      s.handle ctx e = some t → ∃ log, Shows ctx t log :=
    fun _ _ _ ⟨_, hshows⟩ hcheck he => hshows.handle hcheck he
  exact run_invariant_along hstep (Shows.enter publisher hprologue) hchecks hrun

/-- **A bundle is published in its windows.** Where every order is checked
before it is applied, whatever is reordered, dropped or rejected afterwards:
the accepted messages carry the payload in batches, and each transaction that
a bundle brought is in a batch whose message index lies in the windows of that
bundle, but for the lower end of the timestamp, which the check turns round. -/
theorem published_within_windows {publisher : PublishFlashblock}
    {prologue : List (Extension (Sourced Tx))} {events : List (JobEvent (Sourced Tx))}
    {s : JobState (Sourced Tx)} (hprologue : ∀ e ∈ prologue, Checked ctx .new e)
    (hchecks : Along (JobState.handle ctx) (Checks ctx) (JobState.enter publisher prologue) events)
    (hrun : run (JobState.handle ctx) (JobState.enter publisher prologue) events = some s) :
    ∃ batches : List (List (Sourced Tx)),
      s.accepted.map (fun m => m.diff.transactions) = batches.map (List.map encoded2718) ∧
      batches.flatten ++ Span.transactions (PublishFlashblock.unpublishedPayload s.payload) =
        s.payload.transactions ∧
      ∀ (j : Nat) m batch, s.accepted[j]? = some m → batches[j]? = some batch →
        ∀ tx ∈ batch, ∀ b ∈ tx.bundle, ∃ n : FlashblockNumber, n.index = m.index ∧
          OtherBounds b ctx n := by
  obtain ⟨log, hshows⟩ := shows_of_run hprologue hchecks hrun
  have hrefines := hshows.refines
  refine ⟨log.committed, hrefines.batches, ?_, fun j m batch hm hbatch tx htx b hb => ?_⟩
  · rw [hrefines.contents_eq, Log.contents, hrefines.pending]
  · obtain ⟨n, hn, heligible⟩ := hshows.numbered.committed j batch hbatch tx htx b hb
    refine ⟨n, ?_, (isEligible_iff_otherBounds.mp heligible).1⟩
    obtain ⟨hlt, rfl⟩ := List.getElem?_eq_some_iff.mp hm
    have hindex := congrArg (fun l => l[j]?) hrefines.indices
    simp only [List.getElem?_map, List.getElem?_eq_getElem hlt, Option.map_some,
      List.getElem?_range hlt, Option.some.injEq] at hindex
    rw [← UInt64.toNat_inj, FlashblockNumber.toNat_index, hn, hindex, Nat.add_sub_cancel]

/-- A bundle for the second flashblock alone. -/
def secondOnly : FlashblocksBundle Bytes where
  txs := [[7]]
  minFlashblockNumber := some 2
  maxFlashblockNumber := some 2

/-- Its message is rejected, and goes out with the next. -/
def secondEvents : List (JobEvent (Sourced Bytes)) :=
  [.step (.withSink (.ok 0)),
    .rewrite [.apply (.bundle [⟨[7], some secondOnly⟩]) 0 0],
    .step (.withSink (.error "closed")),
    .rewrite [.apply (.transaction ⟨[3], none⟩) 0 0,
      .apply (.bundle [⟨[7], some secondOnly⟩]) 0 0],
    .step (.withSink (.ok 0))]

theorem published_within_windows_second :
    ∃ s : JobState (Sourced Bytes),
      run (JobState.handle default) (JobState.enter {} [.apply (.transaction ⟨[1], none⟩) 0 0])
        secondEvents = some s ∧
      s.accepted.map (fun m => (m.index, m.diff.transactions)) = [(0, [[1]]), (1, [[3], [7]])] ∧
      ∃ batches : List (List (Sourced Bytes)),
        s.accepted.map (fun m => m.diff.transactions) = batches.map (List.map encoded2718) ∧
        batches.flatten ++ Span.transactions (PublishFlashblock.unpublishedPayload s.payload) =
          s.payload.transactions ∧
        ∀ (j : Nat) m batch, s.accepted[j]? = some m → batches[j]? = some batch →
          ∀ tx ∈ batch, ∀ b ∈ tx.bundle, ∃ n : FlashblockNumber, n.index = m.index ∧
            OtherBounds b default n :=
  exists_run (fun s => s.accepted.map fun m => (m.index, m.diff.transactions))
    (v := [(0, [[1]]), (1, [[3], [7]])]) rfl
    fun _ hs hv => ⟨hv, published_within_windows (by decide) (by decide) hs⟩

end UnichainBuilder.BundleInclusion

import Mathlib.Data.List.Flatten
import Mathlib.Data.List.Infix
import UnichainBuilder.ServiceChannel

/-! # What the peers make of a payload

A peer decodes what it is written and keeps what bears the id of the payload.
That is compared with the payload of the job, then or at any later time. -/
namespace UnichainBuilder.Subscribers
open UnichainBuilder.Lib.RustStd UnichainBuilder.Lib.Runs UnichainBuilder.Lib.Broadcast
open UnichainBuilder.Block UnichainBuilder.Checkpoints UnichainBuilder.Publish
open UnichainBuilder.Service UnichainBuilder.ServiceChannel
open UnichainBuilder.WebSocketSink (Peer)

variable {Tx : Type} [Encodable2718 Tx] {json : PayloadJson} {s t : Node Tx}

/-! ## The channel only grows -/

theorem sent_prefix_of_handle {e : Event Tx} (h : s.handle json e = some t) :
    s.sink.pipe.sent <+: t.sink.pipe.sent := by
  cases Node.transition_of_handle h with
  | accepted => exact List.prefix_append _ _
  | transported unpublished handle => rw [pipe_of_handle unpublished handle]
  | _ => exact List.prefix_refl _

theorem sent_prefix_of_run {events : List (Event Tx)}
    (h : run (Node.handle json) s events = some t) : s.sink.pipe.sent <+: t.sink.pipe.sent :=
  run_invariant (P := fun t => s.sink.pipe.sent <+: t.sink.pipe.sent)
    (fun _ _ _ hs he => hs.trans (sent_prefix_of_handle he)) (List.prefix_refl _) h

/-! ## The peer and the payload -/

section
variable {before after : List (Event Tx)} {i j : Nat} {peer : Peer Utf8Bytes}
  {job : PayloadJob Tx}

/-- What was accepted of a payload is a beginning of it. -/
theorem accepted_begins (hs : Invariant json s) (get : s.jobs[i]? = some job) :
    job.accepted.flatMap (fun m => m.diff.transactions) <+:
      job.payload.transactions.map encoded2718 :=
  ⟨_, accepted_transactions hs get⟩

/-- Nothing of a payload was sent before its job began. -/
theorem flashblocks_since (hs : Invariant json s) (get : s.jobs[i]? = some job)
    (hunique : s.Unique i) {start : Nat} (hstart : start ≤ job.openedAt) :
    json.flashblocksOf job.ctx.payloadId (s.sink.pipe.sent.drop start) = job.accepted := by
  obtain ⟨hcarried, hbefore⟩ := hs.carried i job get hunique
  have htake : s.sink.pipe.sent.take start <+: s.sink.pipe.sent.take job.openedAt :=
    List.take_prefix_take_left hstart
  have hnone : json.flashblocksOf job.ctx.payloadId (s.sink.pipe.sent.take start) = [] := by
    have hprefix : json.flashblocksOf job.ctx.payloadId (s.sink.pipe.sent.take start) <+:
        json.flashblocksOf job.ctx.payloadId (s.sink.pipe.sent.take job.openedAt) :=
      PayloadJson.flashblocksOf_prefix htake
    rw [hbefore] at hprefix
    exact List.prefix_nil.mp hprefix
  rw [← hcarried]
  conv_rhs => rw [← List.take_append_drop start s.sink.pipe.sent]
  rw [PayloadJson.flashblocksOf_append, hnone, List.nil_append]

/-- What the first flashblocks of a payload look like. -/
theorem begins_payload (hs : Invariant json s) (get : s.jobs[i]? = some job)
    {seen : List OpFlashblockPayload} (hseen : seen <+: job.accepted) :
    seen.map (fun m => m.index.toNat) = List.range seen.length ∧
      seen.flatMap (fun m => m.diff.transactions) <+:
        job.payload.transactions.map encoded2718 := by
  refine ⟨?_, (hseen.flatMap _).trans (accepted_begins hs get)⟩
  have hindices := hseen.map fun m => m.index.toNat
  rw [accepted_indices hs get, List.prefix_iff_eq_take, List.length_map, List.take_range,
    Nat.min_eq_left hseen.length_le] at hindices
  exact hindices

/-- **Whatever a peer was ever written is part of the payload.** At any time,
then or later, and however far it lagged behind: the flashblocks of the payload
that it was written have growing indices, the transactions of each stand
together in the payload, and all of them in the order in which they were
written. -/
theorem written_in_payload (hs : run (Node.handle json) Node.new before = some s)
    (ht : run (Node.handle json) s after = some t) (hpeer : s.sink.peers[j]? = some peer)
    (get : t.jobs[i]? = some job) (hunique : t.Unique i) :
    let seen := json.flashblocksOf job.ctx.payloadId peer.written
    (seen.map fun m => m.index.toNat).Pairwise (· < ·) ∧
      (∀ m ∈ seen, m.diff.transactions <:+: job.payload.transactions.map encoded2718) ∧
      (seen.flatMap fun m => m.diff.transactions).Sublist
        (job.payload.transactions.map encoded2718) := by
  intro seen
  have hinv := run_invariant (fun _ _ _ hs he => hs.handle he) (invariant_of_run hs) ht
  have haccounts := (invariant_of_run hs).sink.peers j peer hpeer
  have hwritten : peer.written.Sublist t.sink.pipe.sent :=
    (haccounts.written_sublist.trans (List.drop_sublist _ _)).trans (sent_prefix_of_run ht).sublist
  have hseen : seen.Sublist job.accepted := by
    rw [← (hinv.carried i job get hunique).1]
    exact PayloadJson.flashblocksOf_sublist hwritten
  refine ⟨?_, fun m hm => ?_, ?_⟩
  · have hindices := hseen.map fun m => m.index.toNat
    rw [accepted_indices hinv get] at hindices
    exact List.pairwise_lt_range.sublist hindices
  · obtain ⟨earlier, later, hsplit⟩ := List.append_of_mem (hseen.subset hm)
    refine List.IsInfix.trans ?_ (accepted_begins hinv get).isInfix
    rw [hsplit, List.flatMap_append, List.flatMap_cons, ← List.append_assoc]
    exact List.infix_append _ _ _
  · exact (hseen.flatMap _).trans (accepted_begins hinv get).sublist

/-! A peer that is written the first flashblocks of both jobs while they go on. -/

def watchedEvents : List (Event Bytes) :=
  [.transport .accept, .transport (.handshake true)] ++ overlappingEvents ++
    [.transport (.recv 0), .transport (.sent 0 true), .transport (.recv 0),
      .transport (.sent 0 true)]

def laterEvents : List (Event Bytes) :=
  [.rewrite 0 [.apply (.transaction [5]) 0 0], .transport (.recv 0)]

set_option synthInstance.maxSize 512 in
/-- After the first part the peer has been written two of the three messages. -/
theorem watched_run : ∃ s t : Node Bytes, ∃ peer job,
    run (Node.handle overlappingJson) Node.new watchedEvents = some s ∧
      run (Node.handle overlappingJson) s laterEvents = some t ∧
      s.sink.peers[0]? = some peer ∧ peer.start = 0 ∧ peer.skipped = [] ∧
      t.jobs[0]? = some job ∧ job.openedAt = 0 ∧
      job.payload.transactions = [[1], [3], [4], [5]] ∧ t.Unique 0 := by
  have hrun : ∃ s t : Node Bytes,
      run (Node.handle overlappingJson) Node.new watchedEvents = some s ∧
        run (Node.handle overlappingJson) s laterEvents = some t ∧
        s.sink.peers.map (fun peer => (peer.start, peer.skipped)) = [(0, [])] ∧
        t.jobs.map (fun job => (job.openedAt, job.ctx.payloadId, job.payload.transactions)) =
          [(0, 1, [[1], [3], [4], [5]]), (1, 2, [[2]])] := by
    refine exists_run_run _ _ ?_ fun s t _ _ hs ht => ⟨hs, ht⟩
    decide +kernel
  obtain ⟨s, t, hs, ht, hpeers, hjobs⟩ := hrun
  obtain ⟨peer, hpeer⟩ := List.map_eq_singleton_iff.mp hpeers
  obtain ⟨job, rest, hsplit, hjob, hrest⟩ := List.map_eq_cons_iff.mp hjobs
  obtain ⟨other, hother, hsecond⟩ := List.map_eq_singleton_iff.mp hrest
  simp only [Prod.mk.injEq] at hpeer hjob hsecond
  refine ⟨s, t, peer, job, hs, ht, by rw [hpeer.1]; rfl, hpeer.2.1, hpeer.2.2,
    by rw [hsplit]; rfl, hjob.1, hjob.2.2, overlapping_unique ?_⟩
  rw [Node.ids, hsplit, hother, List.map_cons, List.map_singleton, hjob.2.1, hsecond.2.1]

theorem written_in_payload_later : ∃ s t : Node Bytes, ∃ peer job,
    run (Node.handle overlappingJson) Node.new watchedEvents = some s ∧
      run (Node.handle overlappingJson) s laterEvents = some t ∧
      s.sink.peers[0]? = some peer ∧ t.jobs[0]? = some job ∧
      ((overlappingJson.flashblocksOf job.ctx.payloadId peer.written).flatMap
        fun m => m.diff.transactions).Sublist [[1], [3], [4], [5]] := by
  obtain ⟨s, t, peer, job, hs, ht, hpeer, _, _, get, _, hpayload, hunique⟩ := watched_run
  have hall := (written_in_payload hs ht hpeer get hunique).2.2
  rw [hpayload] at hall
  exact ⟨s, t, peer, job, hs, ht, hpeer, get, hall⟩

/-- **A peer that keeps up sees the payload from its first flashblock on.** It
subscribed before the job began and was made to skip nothing: what it was
written of the payload is numbered from zero without gaps, and its transactions
are a beginning of the payload, then and at any later time; once nothing is
waiting for it, in the channel or at its stream, they are all that has been
published. -/
theorem written_begins_payload (hs : run (Node.handle json) Node.new before = some s)
    (ht : run (Node.handle json) s after = some t) (hpeer : s.sink.peers[j]? = some peer)
    (hskipped : peer.skipped = []) (get : t.jobs[i]? = some job) (hunique : t.Unique i)
    (hstart : peer.start ≤ job.openedAt) :
    let seen := json.flashblocksOf job.ctx.payloadId peer.written
    seen.map (fun m => m.index.toNat) = List.range seen.length ∧
      seen.flatMap (fun m => m.diff.transactions) <+: job.payload.transactions.map encoded2718 ∧
      (peer.CaughtUp t.sink.pipe →
        seen.flatMap (fun m => m.diff.transactions) ++
            (Span.transactions (PublishFlashblock.unpublishedPayload job.payload)).map encoded2718 =
          job.payload.transactions.map encoded2718) := by
  intro seen
  have hinv := run_invariant (fun _ _ _ hs he => hs.handle he) (invariant_of_run hs) ht
  have hgrown := sent_prefix_of_run ht
  have haccounts := (invariant_of_run hs).sink.peers j peer hpeer
  have hsince := flashblocks_since hinv get hunique hstart
  have hseen : seen <+: job.accepted := by
    rw [← hsince]
    exact PayloadJson.flashblocksOf_prefix
      ((haccounts.written_isPrefix hskipped).trans (hgrown.drop _))
  obtain ⟨hindices, hbegins⟩ := begins_payload hinv get hseen
  refine ⟨hindices, hbegins, fun hcaught => ?_⟩
  -- the channel has not grown since, and the peer has read to its end
  have hsame : s.sink.pipe.sent = t.sink.pipe.sent :=
    hgrown.eq_of_length_le (hcaught.2 ▸ haccounts.next_le)
  have hcaught' : peer.CaughtUp s.sink.pipe := ⟨hcaught.1, hsame ▸ hcaught.2⟩
  have hall : seen = job.accepted := by
    rw [← hsince, ← hsame, ← haccounts.written_eq_drop hskipped hcaught']
  rw [hall]
  exact accepted_transactions hinv get

def caughtUpEvents : List (Event Bytes) :=
  watchedEvents ++ [.transport (.recv 0), .transport (.sent 0 true)]

set_option synthInstance.maxSize 512 in
/-- The peer has been written all three messages when the payload goes on. -/
theorem written_begins_payload_later : ∃ s t : Node Bytes, ∃ peer job,
    run (Node.handle overlappingJson) Node.new caughtUpEvents = some s ∧
      run (Node.handle overlappingJson) s [.rewrite 0 [.apply (.transaction [5]) 0 0]] = some t ∧
      s.sink.peers[0]? = some peer ∧ t.jobs[0]? = some job ∧
      (overlappingJson.flashblocksOf job.ctx.payloadId peer.written).flatMap
          (fun m => m.diff.transactions) ++
        (Span.transactions (PublishFlashblock.unpublishedPayload job.payload)).map encoded2718 =
          [[1], [3], [4], [5]] := by
  have hrun : ∃ s t : Node Bytes,
      run (Node.handle overlappingJson) Node.new caughtUpEvents = some s ∧
        run (Node.handle overlappingJson) s [.rewrite 0 [.apply (.transaction [5]) 0 0]] = some t ∧
        s.sink.peers.map (fun peer =>
            (peer.start, peer.skipped, peer.sending, peer.receiver.next)) = [(0, [], none, 3)] ∧
        (t.sink.pipe.sent.length,
            t.jobs.map fun job => (job.ctx.payloadId, job.payload.transactions)) =
          (3, [(1, [[1], [3], [4], [5]]), (2, [[2]])]) := by
    refine exists_run_run _ _ ?_ fun s t _ _ hs ht => ⟨hs, ht⟩
    decide +kernel
  obtain ⟨s, t, hs, ht, hpeers, ht'⟩ := hrun
  obtain ⟨hsent, hjobs⟩ := Prod.mk.inj ht'
  obtain ⟨peer, hpeer, hv⟩ := List.map_eq_singleton_iff.mp hpeers
  obtain ⟨job, rest, hsplit, hjob, hrest⟩ := List.map_eq_cons_iff.mp hjobs
  obtain ⟨other, hother, hsecond⟩ := List.map_eq_singleton_iff.mp hrest
  simp only [Prod.mk.injEq] at hv hjob hsecond
  obtain ⟨hstart, hskipped, hidle, hnext⟩ := hv
  have hunique : t.Unique 0 := overlapping_unique (by
    rw [Node.ids, hsplit, hother, List.map_cons, List.map_singleton, hjob.1, hsecond.1])
  have hget : s.sink.peers[0]? = some peer := by rw [hpeer]; rfl
  have get : t.jobs[0]? = some job := by rw [hsplit]; rfl
  have hall := (written_begins_payload hs ht hget hskipped get hunique
    (by rw [hstart]; exact Nat.zero_le _)).2.2 ⟨hidle, hnext.trans hsent.symm⟩
  rw [hjob.2] at hall
  exact ⟨s, t, peer, job, hs, ht, hget, get, hall⟩

end
end UnichainBuilder.Subscribers

import UnichainBuilder.Lib.Runs
import UnichainBuilder.Lib.Broadcast
import UnichainBuilder.Publish

/-! # The websocket sink

`WebSocketSink` of `publish.rs`: a broadcast channel between the publishing
step and one loop for each connected peer. The peers run at their own speed.
One that falls behind by more than the channel keeps is told so by its
receiver; the loop writes a log line and goes on. While the loop waits for its
stream to take a message it looks at nothing else. -/
namespace UnichainBuilder.WebSocketSink
open UnichainBuilder.Lib.Runs UnichainBuilder.Lib.Broadcast UnichainBuilder.Publish

/-- A peer whose handshake is done. `start` and `skipped` are notes of an
observer: the position that `resubscribe` gave, and those that were lost. -/
structure Peer (α : Type) where
  start : Nat
  receiver : Receiver
  /-- The message that `stream.send` has been called with and is waited for. -/
  sending : Option α := none
  written : List α := []
  skipped : List Nat := []
  connected : Bool := true
  deriving DecidableEq, Repr

inductive Listener
  | accepting
  /-- Waiting for `accept_async`, with the receiver for the new peer. -/
  | handshaking (receiver : Receiver)
  | stopped
  deriving DecidableEq, Repr

structure Sink (α : Type) where
  pipe : Channel α
  /-- The sink has been dropped, and its end of the channel with it. -/
  dropped : Bool
  term : Bool
  listener : Listener
  peers : List (Peer α)

inductive Event (α : Type)
  /-- `publish`, with what serialising gave. -/
  | publish (serialized : Except IoError α)
  | accept
  /-- The end of the handshake: a stream to a peer with an address, or not. -/
  | handshake (ok : Bool)
  | stopListener
  /-- The receiver of the peer answers. -/
  | recv (peer : Nat)
  /-- The end of `stream.send`. -/
  | sent (peer : Nat) (ok : Bool)
  /-- The stream yields a close message or an error, or anything else. -/
  | incoming (peer : Nat) (closes : Bool)
  | stopPeer (peer : Nat)
  /-- The pipeline is gone. -/
  | shutdown
  | drop

namespace Peer
variable {α : Type}

/-- An arm of the `select!` of `broadcast_loop`; none is looked at during a send. -/
def select (f : Peer α → Option (Peer α)) (peer : Peer α) : Option (Peer α) :=
  match peer.sending with
  | none => f peer
  | some _ => none

/-- The receiving arm up to its `await`; `none` while there is nothing to receive. -/
def recv (pipe : Channel α) (dropped : Bool) (peer : Peer α) : Option (Peer α) :=
  match pipe.recv peer.receiver with
  | (.ok message, receiver) => some { peer with receiver, sending := some message }
  | (.lagged missed, receiver) =>
    some { peer with
      receiver
      skipped := peer.skipped ++ List.range' peer.receiver.next missed }
  | (.empty, _) => if dropped then some { peer with connected := false } else none

/-- The rest of the receiving arm. A message whose send fails has left the
receiver and reaches nobody. -/
def sent (ok : Bool) (peer : Peer α) : Option (Peer α) :=
  match peer.sending with
  | some message =>
    if ok then some { peer with sending := none, written := peer.written ++ [message] }
    else some { peer with connected := false }
  | none => none

def incoming (closes : Bool) (peer : Peer α) : Peer α :=
  if closes then { peer with connected := false } else peer

/-- Nothing waits for the peer, neither in the channel nor at its stream. -/
def CaughtUp (pipe : Channel α) (peer : Peer α) : Prop :=
  peer.sending = none ∧ peer.receiver.next = pipe.sent.length

end Peer

/-- What the channel keeps: tokio rounds the 100 that `new` asks for up to a
power of two. -/
def broadcastCapacity : Nat := 128

namespace Sink
variable {α : Type}

def new (capacity : Nat) : Sink α where
  pipe := ⟨capacity, []⟩
  dropped := false
  term := false
  listener := .accepting
  peers := []

/-- The listener keeps a receiver of its own. -/
def hasReceivers (s : Sink α) : Bool := s.listener ≠ .stopped || s.peers.any Peer.connected

/-- One turn of the loop of a connected peer. -/
def turn (s : Sink α) (i : Nat) (f : Peer α → Option (Peer α)) : Option (Sink α) :=
  match s.peers[i]? with
  | some peer =>
    if peer.connected then (f peer).map fun peer => { s with peers := s.peers.set i peer }
    else none
  | none => none

def handle (s : Sink α) : Event α → Option (Sink α)
  | .publish (.ok message) =>
    if s.dropped then none
    -- without receivers the channel takes nothing and `publish` fails
    else if s.hasReceivers then some { s with pipe := s.pipe.send message }
    else some s
  | .publish (.error _) => if s.dropped then none else some s
  | .accept =>
    match s.listener with
    | .accepting => some { s with listener := .handshaking s.pipe.subscribe }
    | _ => none
  | .handshake ok =>
    match s.listener with
    | .handshaking receiver =>
      if ok then some { s with
        listener := .accepting
        peers := s.peers ++ [{ start := receiver.next, receiver }] }
      else some { s with listener := .accepting }
    | _ => none
  | .stopListener =>
    match s.listener with
    | .accepting => if s.term then some { s with listener := .stopped } else none
    | _ => none
  | .recv i => s.turn i (Peer.select (Peer.recv s.pipe s.dropped))
  | .sent i ok => s.turn i (Peer.sent ok)
  | .incoming i closes => s.turn i (Peer.select fun peer => some (peer.incoming closes))
  | .stopPeer i =>
    s.turn i <| Peer.select fun peer =>
      if s.term then some { peer with connected := false } else none
  | .shutdown => some { s with term := true }
  | .drop => some { s with dropped := true, term := true }

end Sink

/-! ## What one step does -/

section
variable {α : Type} {s s' : Sink α} {e : Event α}

theorem select_eq_some {f : Peer α → Option (Peer α)} {peer peer' : Peer α}
    (h : peer.select f = some peer') : peer.sending = none ∧ f peer = some peer' := by
  unfold Peer.select at h
  split at h
  · rename_i hnone
    exact ⟨hnone, h⟩
  · cases h

theorem recv_eq_some {pipe : Channel α} {peer peer' : Peer α} {dropped : Bool}
    (h : peer.recv pipe dropped = some peer') :
    (∃ message receiver, pipe.recv peer.receiver = (.ok message, receiver) ∧
        peer' = { peer with receiver, sending := some message }) ∨
      (∃ missed receiver, pipe.recv peer.receiver = (.lagged missed, receiver) ∧
        peer' = { peer with
          receiver
          skipped := peer.skipped ++ List.range' peer.receiver.next missed }) ∨
      peer' = { peer with connected := false } := by
  unfold Peer.recv at h
  split at h
  · rename_i message receiver hrecv
    cases h
    exact .inl ⟨message, receiver, hrecv, rfl⟩
  · rename_i missed receiver hrecv
    cases h
    exact .inr (.inl ⟨missed, receiver, hrecv, rfl⟩)
  · split at h
    · cases h
      exact .inr (.inr rfl)
    · cases h

theorem sent_eq_some {peer peer' : Peer α} {ok : Bool} (h : peer.sent ok = some peer') :
    ∃ message, peer.sending = some message ∧
      (peer' = { peer with sending := none, written := peer.written ++ [message] } ∨
        peer' = { peer with connected := false }) := by
  unfold Peer.sent at h
  split at h
  · rename_i message hsending
    split at h <;> cases h
    · exact ⟨message, hsending, .inl rfl⟩
    · exact ⟨message, hsending, .inr rfl⟩
  · cases h

theorem turn_eq_some {i : Nat} {f : Peer α → Option (Peer α)} (h : s.turn i f = some s') :
    ∃ peer peer', s.peers[i]? = some peer ∧ f peer = some peer' ∧
      s' = { s with peers := s.peers.set i peer' } := by
  unfold Sink.turn at h
  split at h
  · rename_i peer hpeer
    split at h
    · obtain ⟨peer', hf, rfl⟩ := Option.map_eq_some_iff.mp h
      exact ⟨peer, peer', hpeer, hf, rfl⟩
    · cases h
  · cases h

theorem peer_of_turn {i j : Nat} {f : Peer α → Option (Peer α)} {peer' : Peer α}
    (h : s.turn i f = some s') (hpeer' : s'.peers[j]? = some peer') :
    s.peers[j]? = some peer' ∨
      i = j ∧ ∃ peer, s.peers[j]? = some peer ∧ f peer = some peer' := by
  obtain ⟨peer, updated, hpeer, hf, rfl⟩ := turn_eq_some h
  by_cases hij : i = j
  · subst hij
    have hlt : i < s.peers.length := (List.getElem?_eq_some_iff.mp hpeer).1
    rw [List.getElem?_set_self hlt] at hpeer'
    cases hpeer'
    exact .inr ⟨rfl, peer, hpeer, hf⟩
  · rw [List.getElem?_set_ne hij] at hpeer'
    exact .inl hpeer'

/-- What a step does to the channel, the listener and the peers. -/
inductive Effect (s : Sink α) (e : Event α) (s' : Sink α) : Prop
  | published (message : α) (hpipe : s'.pipe = s.pipe.send message)
      (hlistener : s'.listener = s.listener) (hpeers : s'.peers = s.peers)
  | accepted (hpipe : s'.pipe = s.pipe) (hlistener : s'.listener = .handshaking s.pipe.subscribe)
      (hpeers : s'.peers = s.peers)
  | joined (receiver : Receiver) (hhandshake : s.listener = .handshaking receiver)
      (hpipe : s'.pipe = s.pipe) (hlistener : s'.listener = .accepting)
      (hpeers : s'.peers = s.peers ++ [{ start := receiver.next, receiver }])
  | received (i : Nat) (he : e = .recv i)
      (hturn : s.turn i (Peer.select (Peer.recv s.pipe s.dropped)) = some s')
  | delivered (i : Nat) (ok : Bool) (he : e = .sent i ok)
      (hturn : s.turn i (Peer.sent ok) = some s')
  | turned (i : Nat) (f : Peer α → Option (Peer α))
      (hf : ∀ peer peer', f peer = some peer' →
        peer.sending = none ∧ ∃ c, peer' = { peer with connected := c })
      (hturn : s.turn i f = some s')
  | quiet (hpipe : s'.pipe = s.pipe) (hpeers : s'.peers = s.peers)
      (hlistener : ∀ r, s'.listener = .handshaking r → s.listener = .handshaking r)

theorem effect_of_handle (h : s.handle e = some s') : Effect s e s' := by
  cases e with
  | publish serialized =>
    cases serialized with
    | ok message =>
      simp only [Sink.handle] at h
      split at h
      · cases h
      · split at h
        · cases h
          exact .published message rfl rfl rfl
        · cases h
          exact .quiet rfl rfl fun _ hr => hr
    | error err =>
      simp only [Sink.handle] at h
      split at h
      · cases h
      · cases h
        exact .quiet rfl rfl fun _ hr => hr
  | accept =>
    simp only [Sink.handle] at h
    split at h
    · cases h
      exact .accepted rfl rfl rfl
    · cases h
  | handshake ok =>
    simp only [Sink.handle] at h
    split at h
    · rename_i receiver hl
      split at h
      · cases h
        exact .joined receiver hl rfl rfl rfl
      · cases h
        exact .quiet rfl rfl fun _ hr => nomatch hr
    · cases h
  | stopListener =>
    simp only [Sink.handle] at h
    split at h
    · split at h
      · cases h
        exact .quiet rfl rfl fun _ hr => nomatch hr
      · cases h
    · cases h
  | recv i => exact .received i rfl h
  | sent i ok => exact .delivered i ok rfl h
  | incoming i closes =>
    refine .turned i _ (fun peer peer' hf => ?_) h
    obtain ⟨hidle, hclosed⟩ := select_eq_some hf
    cases hclosed
    unfold Peer.incoming
    split
    · exact ⟨hidle, false, rfl⟩
    · exact ⟨hidle, peer.connected, rfl⟩
  | stopPeer i =>
    refine .turned i _ (fun peer peer' hf => ?_) h
    obtain ⟨hidle, hstopped⟩ := select_eq_some hf
    split at hstopped
    · cases hstopped
      exact ⟨hidle, false, rfl⟩
    · cases hstopped
  | shutdown =>
    cases h
    exact .quiet rfl rfl fun _ hr => hr
  | drop =>
    cases h
    exact .quiet rfl rfl fun _ hr => hr

end

/-! ## What a peer is written -/

namespace Peer
variable {α : Type} {pipe : Channel α} {peer peer' : Peer α}

/-- What a peer was written, and the message at its stream, account for every
position since its `resubscribe`. -/
def Accounts (pipe : Channel α) (peer : Peer α) : Prop :=
  Account pipe peer.start peer.receiver peer.skipped (peer.written ++ peer.sending.toList)

namespace Accounts

theorem recv {dropped : Bool} (hp : peer.Accounts pipe) (hidle : peer.sending = none)
    (h : peer.recv pipe dropped = some peer') : peer'.Accounts pipe := by
  have hwritten : Account pipe peer.start peer.receiver peer.skipped peer.written := by
    unfold Accounts at hp
    rwa [hidle, Option.toList_none, List.append_nil] at hp
  rcases recv_eq_some h with ⟨message, receiver, hrecv, rfl⟩ | ⟨missed, receiver, hrecv, rfl⟩ | rfl
  · exact Account.recv_ok hwritten hrecv
  · exact Account.recv_lagged hp hrecv
  · exact hp

/-- The message at the stream is written or lost, and nothing else. -/
theorem sent {ok : Bool} (hp : peer.Accounts pipe) (h : peer.sent ok = some peer') :
    peer'.Accounts pipe := by
  obtain ⟨message, hsending, rfl | rfl⟩ := sent_eq_some h
  · unfold Accounts at hp ⊢
    rw [hsending] at hp
    rw [Option.toList_none, List.append_nil]
    exact hp
  · exact hp

theorem written_sublist (hp : peer.Accounts pipe) :
    peer.written.Sublist (pipe.sent.drop peer.start) :=
  (List.sublist_append_left _ _).trans (Account.sublist hp)

theorem written_isPrefix (hp : peer.Accounts pipe) (hskipped : peer.skipped = []) :
    peer.written <+: pipe.sent.drop peer.start := by
  unfold Accounts at hp
  rw [hskipped] at hp
  exact (List.prefix_append _ _).trans hp.isPrefix

/-- Everything since the start, once nothing is waiting. -/
theorem written_eq_drop (hp : peer.Accounts pipe) (hskipped : peer.skipped = [])
    (hcaught : peer.CaughtUp pipe) : peer.written = pipe.sent.drop peer.start := by
  unfold Accounts at hp
  rw [hskipped, hcaught.1, Option.toList_none, List.append_nil] at hp
  exact hp.eq_drop hcaught.2

end Accounts
end Peer

section
variable {α : Type} {s s' : Sink α} {e : Event α}

structure Invariant (s : Sink α) : Prop where
  /-- The receiver that waits for its handshake may already be behind. -/
  waiting : ∀ r, s.listener = .handshaking r → Account s.pipe r.next r [] []
  peers : ∀ (j : Nat) (peer : Peer α), s.peers[j]? = some peer → peer.Accounts s.pipe

theorem invariant_new (capacity : Nat) : Invariant (Sink.new capacity : Sink α) where
  waiting _ h := nomatch h
  peers _ _ h := nomatch h

theorem Invariant.turn {i : Nat} {f : Peer α → Option (Peer α)} (hs : Invariant s)
    (h : s.turn i f = some s')
    (hf : ∀ peer peer', peer.Accounts s.pipe → f peer = some peer' → peer'.Accounts s.pipe) :
    Invariant s' := by
  obtain ⟨_, _, _, _, rfl⟩ := turn_eq_some h
  refine ⟨hs.waiting, fun j peer' hj => ?_⟩
  rcases peer_of_turn h hj with hold | ⟨_, peer, hpeer, hfp⟩
  · exact hs.peers j peer' hold
  · exact hf peer peer' (hs.peers j peer hpeer) hfp

theorem Invariant.handle (hs : Invariant s) (h : s.handle e = some s') : Invariant s' := by
  cases effect_of_handle h with
  | published message hpipe hlistener hpeers =>
    refine ⟨?_, ?_⟩
    · rw [hpipe, hlistener]
      exact fun r hr => (hs.waiting r hr).send message
    · rw [hpipe, hpeers]
      exact fun j peer hj => Account.send (hs.peers j peer hj) message
  | accepted hpipe hlistener hpeers =>
    refine ⟨?_, ?_⟩
    · rw [hpipe, hlistener]
      intro r hr
      cases hr
      exact Account.subscribe s.pipe
    · rw [hpipe, hpeers]
      exact hs.peers
  | joined receiver hhandshake hpipe hlistener hpeers =>
    refine ⟨?_, ?_⟩
    · rw [hlistener]
      exact fun r hr => nomatch hr
    · rw [hpipe, hpeers]
      intro j peer hj
      rcases List.mem_append.mp (List.mem_of_getElem? hj) with hold | hnew
      · obtain ⟨i, hi⟩ := List.mem_iff_getElem?.mp hold
        exact hs.peers i peer hi
      · rw [List.mem_singleton.mp hnew]
        exact hs.waiting receiver hhandshake
  | received i he hturn =>
    refine hs.turn hturn fun peer peer' hp hf => ?_
    obtain ⟨hidle, hrecv⟩ := select_eq_some hf
    exact hp.recv hidle hrecv
  | delivered i ok he hturn => exact hs.turn hturn fun peer peer' hp hf => hp.sent hf
  | turned i f hf hturn =>
    refine hs.turn hturn fun peer peer' hp hf' => ?_
    obtain ⟨-, c, rfl⟩ := hf peer peer' hf'
    exact hp
  | quiet hpipe hpeers hlistener =>
    refine ⟨?_, ?_⟩
    · rw [hpipe]
      exact fun r hr => hs.waiting r (hlistener r hr)
    · rw [hpipe, hpeers]
      exact hs.peers

theorem capacity_of_handle (h : s.handle e = some s') : s'.pipe.capacity = s.pipe.capacity := by
  cases effect_of_handle h with
  | published message hpipe => rw [hpipe, Channel.send]
  | accepted hpipe | joined _ _ hpipe | quiet hpipe => rw [hpipe]
  | received i he hturn | delivered i ok he hturn | turned i f hf hturn =>
    obtain ⟨_, _, _, _, rfl⟩ := turn_eq_some hturn
    rfl

/-- The receiver of the peer answers while no more wait for it than are kept. -/
def Punctual (j : Nat) (s : Sink α) : Event α → Prop
  | .recv i => i = j → ∀ peer, s.peers[j]? = some peer →
      s.pipe.sent.length ≤ peer.receiver.next + s.pipe.capacity
  | _ => True

/-- A receive that is punctual skips nothing. -/
theorem skipped_recv {pipe : Channel α} {peer peer' : Peer α} {dropped : Bool}
    (hpunctual : pipe.sent.length ≤ peer.receiver.next + pipe.capacity)
    (h : peer.recv pipe dropped = some peer') : peer'.skipped = peer.skipped := by
  rcases recv_eq_some h with ⟨message, receiver, hrecv, rfl⟩ | ⟨missed, receiver, hrecv, rfl⟩ | rfl
  · rfl
  · have hbehind := (Channel.recv_eq_lagged hrecv).1
    exact absurd hbehind (Nat.not_lt_of_le hpunctual)
  · rfl

theorem nothing_skipped_of_handle {j : Nat}
    (hskipped : ∀ peer, s.peers[j]? = some peer → peer.skipped = [])
    (hpunctual : Punctual j s e) (h : s.handle e = some s') :
    ∀ peer, s'.peers[j]? = some peer → peer.skipped = [] := by
  intro peer' hj
  cases effect_of_handle h with
  | published _ _ _ hpeers =>
    rw [hpeers] at hj
    exact hskipped peer' hj
  | accepted _ _ hpeers =>
    rw [hpeers] at hj
    exact hskipped peer' hj
  | joined receiver _ _ _ hpeers =>
    rw [hpeers, List.getElem?_append] at hj
    split at hj
    · exact hskipped peer' hj
    · have hnew := List.mem_singleton.mp (List.mem_of_getElem? hj)
      rw [hnew]
  | received i he hturn =>
    rcases peer_of_turn hturn hj with hold | ⟨hij, peer, hpeer, hf⟩
    · exact hskipped peer' hold
    · rw [he] at hpunctual
      rw [skipped_recv (hpunctual hij peer hpeer) (select_eq_some hf).2]
      exact hskipped peer hpeer
  | delivered i ok he hturn =>
    rcases peer_of_turn hturn hj with hold | ⟨_, peer, hpeer, hf⟩
    · exact hskipped peer' hold
    · obtain ⟨_, _, rfl | rfl⟩ := sent_eq_some hf <;> exact hskipped peer hpeer
  | turned i f hf hturn =>
    rcases peer_of_turn hturn hj with hold | ⟨_, peer, hpeer, hfp⟩
    · exact hskipped peer' hold
    · obtain ⟨-, c, rfl⟩ := hf peer peer' hfp
      exact hskipped peer hpeer
  | quiet _ hpeers _ =>
    rw [hpeers] at hj
    exact hskipped peer' hj

variable {capacity : Nat} {events : List (Event α)}

theorem invariant_of_run (h : run Sink.handle (Sink.new capacity) events = some s) :
    Invariant s :=
  run_invariant (fun _ _ _ hs he => hs.handle he) (invariant_new capacity) h

theorem capacity_of_run (h : run Sink.handle (Sink.new capacity) events = some s) :
    s.pipe.capacity = capacity :=
  run_invariant (P := fun s => s.pipe.capacity = capacity)
    (fun _ _ _ hs he => (capacity_of_handle he).trans hs) rfl h

theorem nothing_skipped_of_run {j : Nat}
    (h : run Sink.handle (Sink.new capacity) events = some s)
    (halong : Along Sink.handle (Punctual j) (Sink.new capacity) events) :
    ∀ peer, s.peers[j]? = some peer → peer.skipped = [] :=
  run_invariant_along (I := fun s => ∀ peer, s.peers[j]? = some peer → peer.skipped = [])
    (fun _ _ _ hs hp he => nothing_skipped_of_handle hs hp he)
    (fun _ hpeer => by cases hpeer) halong h

/-- **What a peer is written.** In any interleaving, whatever the channel keeps:
the published flashblocks from its `resubscribe` on, in order and none twice,
but for the positions that its receiver skipped and the message that is at its
stream. What was skipped had all been overwritten, and there is none as long as
the peer is read for with no more flashblocks waiting than are kept; then what
it is written has no hole. -/
theorem peer_written (j : Nat) (peer : Peer α)
    (h : run Sink.handle (Sink.new capacity) events = some s)
    (hpeer : s.peers[j]? = some peer) :
    peer.written ++ peer.sending.toList =
        s.pipe.messages (delivered peer.start peer.receiver.next peer.skipped) ∧
      peer.written.Sublist (s.pipe.sent.drop peer.start) ∧
      (∀ q ∈ peer.skipped, q + capacity < s.pipe.sent.length) ∧
      (peer.skipped = [] → peer.written <+: s.pipe.sent.drop peer.start) ∧
      (Along Sink.handle (Punctual j) (Sink.new capacity) events → peer.skipped = []) := by
  have haccounts := (invariant_of_run h).peers j peer hpeer
  refine ⟨haccounts.got_eq, haccounts.written_sublist, ?_, haccounts.written_isPrefix,
    fun halong => nothing_skipped_of_run h halong peer hpeer⟩
  rw [← capacity_of_run h]
  exact haccounts.overwritten

end

/-- One peer, two flashblocks, the second of them at its stream. -/
theorem peer_written_two :
    ∃ s : Sink Nat,
      run Sink.handle (Sink.new broadcastCapacity) [.accept, .handshake true, .publish (.ok 7),
        .publish (.ok 8), .recv 0, .sent 0 true, .recv 0] = some s ∧
      s.peers[0]? = some ⟨0, ⟨2⟩, some 8, [7], [], true⟩ ∧ [7].Sublist (s.pipe.sent.drop 0) := by
  refine exists_run (fun s : Sink Nat => s.peers[0]?) (v := some ⟨0, ⟨2⟩, some 8, [7], [], true⟩) ?_
    fun s hs hpeer => ?_
  · decide
  · exact ⟨hpeer, (peer_written 0 _ hs hpeer).2.1⟩

/-! One flashblock more than is kept. -/

/-- What is published while the listener is there goes to the channel. -/
theorem run_publishes {α : Type} {s : Sink α} (messages : List α)
    (hlistener : s.listener = .accepting) (hdropped : s.dropped = false) :
    run Sink.handle s (messages.map fun m => .publish (.ok m)) =
      some { s with pipe := { s.pipe with sent := s.pipe.sent ++ messages } } := by
  induction messages generalizing s with
  | nil => simp [run]
  | cons m rest ih =>
    have hstep : s.handle (.publish (.ok m)) = some { s with pipe := s.pipe.send m } := by
      simp [Sink.handle, Sink.hasReceivers, hlistener, hdropped]
    rw [List.map_cons]
    refine run_cons_eq_some.mpr ⟨{ s with pipe := s.pipe.send m }, hstep, ?_⟩
    rw [@ih { s with pipe := s.pipe.send m } hlistener hdropped]
    simp [Channel.send]

/-- A peer connects, one flashblock more is published than the channel keeps,
and only then the receiver of the peer answers. -/
def overflowing (capacity : Nat) : List (Event Nat) :=
  [.accept, .handshake true] ++ ((List.range (capacity + 1)).map fun n => .publish (.ok n)) ++
    [.recv 0, .recv 0, .sent 0 true]

/-- The first that the peer is written is the second published. -/
def FirstSkipped (capacity : Nat) : Prop :=
  ∃ s : Sink Nat, ∃ peer : Peer Nat,
    run Sink.handle (Sink.new capacity) (overflowing capacity) = some s ∧
    s.peers[0]? = some peer ∧ peer.connected = true ∧ peer.start = 0 ∧
    s.pipe.sent[0]? = some 0 ∧ peer.written = [1] ∧
    ¬ peer.written <+: s.pipe.sent.drop peer.start

theorem firstSkipped {capacity : Nat} (hpos : 0 < capacity) : FirstSkipped capacity := by
  let published := List.range (capacity + 1)
  let joined : Sink Nat := { Sink.new capacity with peers := [⟨0, ⟨0⟩, none, [], [], true⟩] }
  let full : Sink Nat := { joined with pipe := ⟨capacity, published⟩ }
  let read : Sink Nat := { full with peers := [⟨0, ⟨2⟩, none, [1], [0], true⟩] }
  have hzero : published[0]? = some 0 := by simp [published]
  have hone : published[1]? = some 1 := by simp [published, hpos]
  have hpublish : run Sink.handle joined (published.map fun n => .publish (.ok n)) = some full := by
    rw [run_publishes published rfl rfl]
    rfl
  have hread : run Sink.handle full [.recv 0, .recv 0, .sent 0 true] = some read := by
    have holdest : full.pipe.oldest = 1 := by simp [full, published, Channel.oldest]
    simp [run, Sink.handle, Sink.turn, Peer.select, Peer.recv, Peer.sent, Channel.recv, holdest,
      hone, full, joined, read]
  have hrun : run Sink.handle (Sink.new capacity) (overflowing capacity) = some read :=
    run_append_eq_some.mpr ⟨full, run_append_eq_some.mpr ⟨joined, rfl, hpublish⟩, hread⟩
  refine ⟨read, _, hrun, rfl, rfl, rfl, hzero, rfl, ?_⟩
  rintro ⟨rest, hrest⟩
  have hfirst : published[0]? = some 1 := by
    rw [← List.drop_zero (l := published)]
    exact congrArg (fun sent => sent[0]?) hrest.symm
  rw [hzero] at hfirst
  cases hfirst

/-- With a hundred kept, and with what tokio makes of a hundred. -/
theorem first_flashblock_skipped : FirstSkipped 100 ∧ FirstSkipped broadcastCapacity :=
  ⟨firstSkipped (by decide), firstSkipped (by decide)⟩

end UnichainBuilder.WebSocketSink

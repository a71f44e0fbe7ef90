import UnichainBuilder.Service

/-! # From the first flashblock to the shutdown

Publishing needs a receiver. The listener has one until it stops, and it stops
only after the pipeline or the sink is gone; afterwards the channel lives as
long as its last peer, and then nothing opens it again. -/
namespace UnichainBuilder.Shutdown
open UnichainBuilder.Lib.RustStd UnichainBuilder.Lib.Runs UnichainBuilder.Lib.Broadcast
open UnichainBuilder.Block UnichainBuilder.Checkpoints UnichainBuilder.Publish
open UnichainBuilder.Service
open UnichainBuilder.WebSocketSink (Sink Peer Listener turn_eq_some)

/-! ## The sink -/

section
variable {α : Type} {s s' : Sink α} {e : WebSocketSink.Event α}

/-- Nobody can receive anything any more. -/
def Closed (s : Sink α) : Prop := s.listener = .stopped ∧ ∀ peer ∈ s.peers, peer.connected = false

theorem closed_iff : Closed s ↔ s.hasReceivers = false := by
  simp [Closed, Sink.hasReceivers]

theorem turn_of_closed (hs : Closed s) {i : Nat} {f : Peer α → Option (Peer α)} :
    s.turn i f = none := by
  unfold Sink.turn
  split
  · rename_i peer hpeer
    rw [hs.2 peer (List.mem_of_getElem? hpeer)]
    rfl
  · rfl

/-- A closed sink stays as it is, but for the signals that it gets. -/
theorem Closed.handle (hs : Closed s) (h : s.handle e = some s') : Closed s' ∧ s'.pipe = s.pipe := by
  have hnone := closed_iff.mp hs
  obtain ⟨hstopped, hgone⟩ := hs
  cases e with
  | publish serialized =>
    cases serialized with
    | ok message =>
      simp only [Sink.handle, hnone] at h
      split at h <;> cases h
      exact ⟨⟨hstopped, hgone⟩, rfl⟩
    | error e =>
      simp only [Sink.handle] at h
      split at h <;> cases h
      exact ⟨⟨hstopped, hgone⟩, rfl⟩
  | accept | handshake | stopListener =>
    simp only [Sink.handle, hstopped] at h
    cases h
  | recv | sent | incoming | stopPeer =>
    simp only [Sink.handle, turn_of_closed ⟨hstopped, hgone⟩] at h
    cases h
  | shutdown | drop =>
    cases h
    exact ⟨⟨hstopped, hgone⟩, rfl⟩

/-- The listener has not been told to stop. -/
def Up (s : Sink α) : Prop := s.term = false ∧ s.listener ≠ .stopped

theorem Up.hasReceivers (hs : Up s) : s.hasReceivers = true := by
  simp [Sink.hasReceivers, hs.2]

theorem Up.handle (hs : Up s) (hshutdown : e ≠ .shutdown) (hdrop : e ≠ .drop)
    (h : s.handle e = some s') : Up s' := by
  cases e with
  | publish serialized =>
    cases serialized with
    | ok message =>
      simp only [Sink.handle, hs.hasReceivers] at h
      split at h <;> cases h
      exact hs
    | error e =>
      simp only [Sink.handle] at h
      split at h <;> cases h
      exact hs
  | accept =>
    simp only [Sink.handle] at h
    split at h <;> cases h
    exact ⟨hs.1, Listener.noConfusion⟩
  | handshake ok =>
    simp only [Sink.handle] at h
    split at h
    · split at h <;> cases h <;> exact ⟨hs.1, Listener.noConfusion⟩
    · cases h
  | stopListener =>
    simp only [Sink.handle, hs.1] at h
    split at h <;> cases h
  | recv | sent | incoming | stopPeer =>
    obtain ⟨_, _, _, _, rfl⟩ := turn_eq_some h
    exact hs
  | shutdown => exact absurd rfl hshutdown
  | drop => exact absurd rfl hdrop

end

/-! ## The node -/

section
variable {Tx : Type} [Encodable2718 Tx] {json : PayloadJson} {s t : Node Tx}
  {events : List (Event Tx)}

/-- A call whose payload builds. -/
def builds : Event Tx → Bool
  | .step _ call => call.buildPayload.isOk
  | _ => false

theorem builds_of_flashblock {publisher : PublishFlashblock} {job : PayloadJob Tx} {call : Call}
    {i : Nat} {message : OpFlashblockPayload} (h : flashblock publisher job call = some message) :
    builds (.step i call : Event Tx) = true := by
  unfold flashblock at h
  split at h
  · cases h
  · rename_i hbuild
    simp [builds, hbuild, Except.isOk, Except.toBool]

omit [Encodable2718 Tx] in
theorem countP_builds (past : List (Event Tx)) (e : Event Tx) :
    (past ++ [e]).countP builds = past.countP builds + if builds e then 1 else 0 := by
  rw [List.countP_append, List.countP_singleton]

/-- The callbacks that measure time count no errors. -/
theorem errors_of_untimed {metrics metrics' : Timing.Metrics}
    (h : metrics'.untimed = metrics.untimed) :
    metrics'.websocketPublishErrorsTotal = metrics.websocketPublishErrorsTotal := by
  have herrors := congrArg Timing.Metrics.websocketPublishErrorsTotal h
  exact herrors

/-- The pipeline and the sink stay, and what the call hands over can be serialized. -/
def serving (json : PayloadJson) (s : Node Tx) : Event Tx → Bool
  | .step i call => (s.jobs[i]?.bind fun job => flashblock s.publisher job call).all fun message =>
      (json.toString message).isOk
  | .transport .shutdown | .transport .drop => false
  | _ => true

/-- Every message so far has been sent. -/
structure AllPublished (past : List (Event Tx)) (s : Node Tx) : Prop where
  up : Up s.sink
  errors : s.publisher.metrics.websocketPublishErrorsTotal = 0
  sent : s.sink.pipe.sent.length = past.countP builds

theorem AllPublished.handle {past : List (Event Tx)} {e : Event Tx}
    (hs : AllPublished past s) (hserving : serving json s e = true)
    (h : s.handle json e = some t) : AllPublished (past ++ [e]) t := by
  have hquiet : builds e = false → s.sink.pipe.sent.length = (past ++ [e]).countP builds := by
    intro he
    rw [countP_builds, he, hs.sent]
    rfl
  cases Node.transition_of_handle h with
  | @opened ctx now prologue =>
    refine ⟨hs.up, ?_, hquiet rfl⟩
    exact (errors_of_untimed (s.publisher.times.untimed_onJobStarted _ now)).trans hs.errors
  | rewritten => exact ⟨hs.up, hs.errors, hquiet rfl⟩
  | buildFailed build =>
    exact ⟨hs.up, hs.errors, hquiet (by simp [builds, build, Except.isOk, Except.toBool])⟩
  | rejected get handed refused =>
    rcases refused with hnone | ⟨e, herror⟩
    · rw [hs.up.hasReceivers] at hnone
      cases hnone
    · simp [serving, get, handed, herror, Except.isOk, Except.toBool] at hserving
  | @accepted i call job sealedBlock withdrawalsRoot next text get handed =>
    refine ⟨hs.up, ?_, ?_⟩
    · exact (errors_of_untimed (s.publisher.times.untimed_onPublishedBlock _ call.now)).trans
        hs.errors
    · rw [countP_builds, builds_of_flashblock handed, Channel.send, List.length_append, hs.sent]
      rfl
  | @closed i now =>
    refine ⟨hs.up, ?_, hquiet rfl⟩
    exact (errors_of_untimed (s.publisher.times.untimed_onJobEnded _ now)).trans hs.errors
  | @transported event sink unpublished handle =>
    have hshutdown : event ≠ .shutdown := fun he => by rw [he] at hserving; cases hserving
    have hdrop : event ≠ .drop := fun he => by rw [he] at hserving; cases hserving
    refine ⟨hs.up.handle hshutdown hdrop handle, hs.errors, ?_⟩
    rw [pipe_of_handle unpublished handle]
    exact hquiet rfl

/-- **Until the shutdown nothing is lost.** As long as the pipeline and the sink
are there and messages can be serialized, the channel carries one message for
each call whose payload built, and no publish error is counted: with peers or
without, however the jobs overlap. -/
theorem all_published_until_shutdown
    (halong : Along (Node.handle json) (fun s e => serving json s e = true) Node.new events)
    (h : run (Node.handle json) Node.new events = some s) :
    s.publisher.metrics.websocketPublishErrorsTotal = 0 ∧
      s.sink.pipe.sent.length = events.countP builds := by
  have hnew : AllPublished ([] : List (Event Tx)) Node.new := ⟨⟨rfl, nofun⟩, rfl, rfl⟩
  have hall : AllPublished ([] ++ events) s :=
    run_history_along (fun _ _ _ _ hs hserving he => hs.handle hserving he) hnew halong h
  exact ⟨hall.errors, hall.sent⟩

/-! A shutdown between two calls of a job whose only peer has left. -/

def servedEvents : List (Event Bytes) :=
  [.beforeJob { (default : BlockContext) with payloadId := 1 } ⟨0⟩
      [.apply (.transaction [1]) 0 0], .transport .accept, .step 0 .building,
    .transport (.handshake true), .transport (.incoming 0 true)]

def servedMessages : List OpFlashblockPayload :=
  [{ (default : OpFlashblockPayload) with
      base := some default
      diff := { (default : OpFlashblockPayloadDelta) with transactions := [[1]] }
      payloadId := 1 }]

def servedJson : PayloadJson := .known servedMessages (by decide +kernel)

theorem all_published_until_shutdown_served : ∃ s : Node Bytes,
    run (Node.handle servedJson) Node.new servedEvents = some s ∧
      s.publisher.metrics.websocketPublishErrorsTotal = 0 ∧ s.sink.pipe.sent.length = 1 :=
  exists_run (fun s => s.jobs.length) (v := 1) (by decide +kernel) fun s hs _ =>
    all_published_until_shutdown (by decide +kernel) hs

/-! ## After the last receiver -/

/-- The node since its sink closed. -/
structure ClosedSince (s : Node Tx) (past : List (Event Tx)) (t : Node Tx) : Prop where
  closed : Closed t.sink
  sent : t.sink.pipe.sent = s.sink.pipe.sent
  blocks : t.publisher.metrics.blocksTotal = s.publisher.metrics.blocksTotal
  errors : t.publisher.metrics.websocketPublishErrorsTotal =
    s.publisher.metrics.websocketPublishErrorsTotal + past.countP builds

theorem ClosedSince.handle {s₀ : Node Tx} {past : List (Event Tx)} {e : Event Tx}
    (hs : ClosedSince s₀ past s) (h : s.handle json e = some t) :
    ClosedSince s₀ (past ++ [e]) t := by
  have hquiet : builds e = false → (past ++ [e]).countP builds = past.countP builds := by
    intro he
    rw [countP_builds, he]
    rfl
  cases Node.transition_of_handle h with
  | @opened ctx now prologue =>
    have huntimed := s.publisher.times.untimed_onJobStarted s.publisher.metrics now
    exact ⟨hs.closed, hs.sent, (congrArg Timing.Metrics.blocksTotal huntimed).trans hs.blocks,
      by rw [hquiet rfl]; exact (errors_of_untimed huntimed).trans hs.errors⟩
  | rewritten => exact ⟨hs.closed, hs.sent, hs.blocks, by rw [hquiet rfl]; exact hs.errors⟩
  | buildFailed build =>
    refine ⟨hs.closed, hs.sent, hs.blocks, ?_⟩
    rw [hquiet (by simp [builds, build, Except.isOk, Except.toBool])]
    exact hs.errors
  | rejected get handed refused =>
    refine ⟨hs.closed, hs.sent, hs.blocks, ?_⟩
    rw [countP_builds, builds_of_flashblock handed, if_pos rfl, ← Nat.add_assoc, ← hs.errors]
  | accepted get handed serialized published next_eq =>
    have hsame := (hs.closed.handle published).2
    have hlength := congrArg (fun pipe => pipe.sent.length) hsame
    simp [Channel.send] at hlength
  | @closed i now =>
    have huntimed := s.publisher.times.untimed_onJobEnded s.publisher.metrics now
    exact ⟨hs.closed, hs.sent, (congrArg Timing.Metrics.blocksTotal huntimed).trans hs.blocks,
      by rw [hquiet rfl]; exact (errors_of_untimed huntimed).trans hs.errors⟩
  | @transported event sink unpublished handle =>
    obtain ⟨hclosed, hpipe⟩ := hs.closed.handle handle
    refine ⟨hclosed, ?_, hs.blocks, by rw [hquiet rfl]; exact hs.errors⟩
    rw [hpipe]
    exact hs.sent

/-- **Without receivers nothing is published ever again.** Once the listener has
stopped and the last peer has left, whatever follows: the channel carries
nothing more, no flashblock is counted, and each call whose payload builds is
counted as an error. -/
theorem nothing_published_once_closed (hclosed : Closed s.sink)
    (h : run (Node.handle json) s events = some t) :
    t.sink.pipe.sent = s.sink.pipe.sent ∧
      t.publisher.metrics.blocksTotal = s.publisher.metrics.blocksTotal ∧
      t.publisher.metrics.websocketPublishErrorsTotal =
        s.publisher.metrics.websocketPublishErrorsTotal + events.countP builds := by
  have hsince : ClosedSince s events t :=
    run_history (P := ClosedSince s) (fun _ _ _ _ hs he => hs.handle he) ⟨hclosed, rfl, rfl, rfl⟩ h
  exact ⟨hsince.sent, hsince.blocks, hsince.errors⟩

end

/-- The served job goes on after the shutdown: its second message is refused. -/
theorem nothing_published_once_closed_served : ∃ s t : Node Bytes,
    run (Node.handle servedJson) Node.new
        (servedEvents ++ [.transport .shutdown, .transport .stopListener]) = some s ∧
      run (Node.handle servedJson) s [.rewrite 0 [.apply (.transaction [2]) 0 0],
        .step 0 .building] = some t ∧
      t.sink.pipe.sent = s.sink.pipe.sent ∧
      t.publisher.metrics.websocketPublishErrorsTotal =
        s.publisher.metrics.websocketPublishErrorsTotal + 1 := by
  refine exists_run_run (fun s => s.sink.hasReceivers) (fun t => t.jobs.length) (v := false)
    (w := 1) (by decide +kernel) fun s t _ ht hclosed _ => ?_
  have hall := nothing_published_once_closed (closed_iff.mpr hclosed) ht
  exact ⟨hall.1, hall.2.2⟩

/-! ## The way to a closed sink -/

section
variable {α : Type} {s s' t : Sink α} {i : Nat} {peer : Peer α}

/-- The loop of the peer waits for its stream. -/
def atStream (peer : Peer α) : Bool := peer.connected && peer.sending.isSome

/-- What may happen on the way: the handshake and the sends under way end as
they do. -/
def Stopping (ok : Bool) (sends : Nat → Bool) (e : WebSocketSink.Event α) : Prop :=
  e = .handshake ok ∨ e = .stopListener ∨ ∃ i, e = .sent i (sends i) ∨ e = .stopPeer i

/-- A peer that is told to stop does so in its next turn, which comes after the
send that it waits for. -/
theorem stop_peer (hterm : s.term = true) (hpeer : s.peers[i]? = some peer)
    (hconnected : peer.connected = true) (ok : Bool) :
    ∃ events peer', events.length ≤ 1 + (if atStream peer then 1 else 0) ∧
      (∀ e ∈ events, e = .sent i ok ∨ e = .stopPeer i) ∧ peer'.connected = false ∧
      run Sink.handle s events = some { s with peers := s.peers.set i peer' } := by
  obtain ⟨hlt, hget⟩ := List.getElem?_eq_some_iff.mp hpeer
  cases hsending : peer.sending with
  | none =>
    refine ⟨[.stopPeer i], { peer with connected := false }, Nat.le_add_right _ _, by simp, rfl, ?_⟩
    simp [run, Sink.handle, Sink.turn, Peer.select, hpeer, hconnected, hsending, hterm]
  | some message =>
    have hbusy : atStream peer = true := by simp [atStream, hconnected, hsending]
    cases ok with
    | false =>
      refine ⟨[.sent i false], { peer with connected := false }, Nat.le_add_right _ _, by simp,
        rfl, ?_⟩
      simp [run, Sink.handle, Sink.turn, Peer.sent, hpeer, hconnected, hsending]
    | true =>
      refine ⟨[.sent i true, .stopPeer i],
        { peer with sending := none, written := peer.written ++ [message], connected := false },
        by simp [hbusy], by simp, rfl, ?_⟩
      simp [run, Sink.handle, Sink.turn, Peer.select, Peer.sent, hget, hconnected, hsending,
        hterm, hlt]

/-- The connected peers stop one after the other. -/
theorem stop_peers {n : Nat} (hterm : s.term = true) (hn : s.peers.countP Peer.connected = n)
    (ok : Bool) (sends : Nat → Bool) :
    ∃ events t, events.length ≤ n + s.peers.countP atStream ∧
      (∀ e ∈ events, Stopping ok sends e) ∧ run Sink.handle s events = some t ∧
      (∀ peer ∈ t.peers, peer.connected = false) ∧ t.listener = s.listener ∧ t.pipe = s.pipe := by
  induction n generalizing s with
  | zero =>
    refine ⟨[], s, Nat.zero_le _, by simp, rfl, fun peer hpeer => ?_, rfl, rfl⟩
    simpa using List.countP_eq_zero.mp hn peer hpeer
  | succ n ih =>
    have hpos : 0 < s.peers.countP Peer.connected := by rw [hn]; exact Nat.succ_pos n
    obtain ⟨peer, hpeer, hconnected⟩ := List.countP_pos_iff.mp hpos
    obtain ⟨i, hlt, hget⟩ := List.getElem_of_mem hpeer
    obtain ⟨first, peer', hfirst, hevents, hgone', hrun'⟩ :=
      stop_peer hterm (List.getElem?_eq_some_iff.mpr ⟨hlt, hget⟩) hconnected (sends i)
    let next : Sink α := { s with peers := s.peers.set i peer' }
    have hcount : next.peers.countP Peer.connected = n := by
      simp only [next]
      rw [List.countP_set hlt, hget, hconnected, hgone', hn]
      rfl
    have hbusy : next.peers.countP atStream + (if atStream peer then 1 else 0) =
        s.peers.countP atStream := by
      have hidle : atStream peer' = false := by simp [atStream, hgone']
      have hle : (if atStream peer then 1 else 0) ≤ s.peers.countP atStream := by
        split
        · exact List.countP_pos_iff.mpr ⟨peer, hpeer, ‹_›⟩
        · exact Nat.zero_le _
      simp only [next]
      rw [List.countP_set hlt, hget, hidle]
      simpa using Nat.sub_add_cancel hle
    obtain ⟨rest, t, hlength, hrest, hrun, hgone, hlistener, hpipe⟩ := @ih next hterm hcount
    refine ⟨first ++ rest, t, ?_, ?_, run_append_eq_some.mpr ⟨next, hrun', hrun⟩, hgone,
      hlistener, hpipe⟩
    · rw [List.length_append]
      omega
    · intro e he
      rcases List.mem_append.mp he with he | he
      · exact .inr (.inr ⟨i, hevents e he⟩)
      · exact hrest e he

theorem stop_accepting (hterm : s.term = true) (hlistener : s.listener = .accepting) (ok : Bool)
    (sends : Nat → Bool) :
    ∃ events t, events.length ≤ s.peers.length + 1 + s.peers.countP atStream ∧
      (∀ e ∈ events, Stopping ok sends e) ∧ run Sink.handle s events = some t ∧ Closed t ∧
      t.pipe = s.pipe := by
  let next : Sink α := { s with listener := .stopped }
  have hstep : s.handle .stopListener = some next := by simp [Sink.handle, hlistener, hterm, next]
  obtain ⟨events, t, hlength, hevents, hrun, hgone, hstopped, hpipe⟩ :=
    @stop_peers α next _ hterm rfl ok sends
  refine ⟨.stopListener :: events, t, ?_, ?_, run_cons_eq_some.mpr ⟨next, hstep, hrun⟩,
    ⟨hstopped, hgone⟩, hpipe⟩
  · have hconnected : next.peers.countP Peer.connected ≤ s.peers.length := List.countP_le_length
    have hbusy : next.peers.countP atStream = s.peers.countP atStream := rfl
    rw [List.length_cons]
    omega
  · intro e he
    rcases List.mem_cons.mp he with rfl | he
    · exact .inr (.inl rfl)
    · exact hevents e he

/-- A handshake that ends leaves the listener where it accepts, with one idle
peer more if it succeeds. -/
theorem end_handshake {receiver : Receiver} (hlistener : s.listener = .handshaking receiver)
    (ok : Bool) :
    ∃ next, s.handle (.handshake ok) = some next ∧ next.term = s.term ∧
      next.listener = .accepting ∧ next.peers.length ≤ s.peers.length + 1 ∧
      next.peers.countP atStream = s.peers.countP atStream ∧ next.pipe = s.pipe := by
  cases ok with
  | true =>
    refine ⟨{ s with
      listener := .accepting
      peers := s.peers ++ [{ start := receiver.next, receiver }] }, ?_, rfl, rfl, ?_, ?_, rfl⟩
    · simp [Sink.handle, hlistener]
    · simp
    · simp [atStream]
  | false =>
    refine ⟨{ s with listener := .accepting }, ?_, rfl, rfl, Nat.le_succ _, rfl, rfl⟩
    simp [Sink.handle, hlistener]

/-- Nothing but the end of its send changes a peer that waits for it. -/
theorem sending_stays {e : WebSocketSink.Event α} (hpeer : s.peers[i]? = some peer)
    (hsending : peer.sending.isSome) (he : ∀ ok, e ≠ .sent i ok) (h : s.handle e = some s') :
    s'.peers[i]? = some peer := by
  have hturn : ∀ (j : Nat) (f : Peer α → Option (Peer α)), s.turn j f = some s' →
      (∀ peer', j = i → f peer = some peer' → peer.sending = none) →
      s'.peers[i]? = some peer := by
    intro j f hturn hf
    obtain ⟨found, peer', hfound, hnext, rfl⟩ := turn_eq_some hturn
    by_cases hij : j = i
    · subst hij
      rw [hpeer] at hfound
      cases hfound
      rw [hf peer' rfl hnext] at hsending
      cases hsending
    · rw [← hpeer]
      exact List.getElem?_set_ne hij
  cases WebSocketSink.effect_of_handle h with
  | published _ _ _ hpeers | accepted _ _ hpeers | quiet _ hpeers =>
    rw [hpeers]
    exact hpeer
  | joined _ _ _ _ hpeers =>
    rw [hpeers, List.getElem?_append_left (List.getElem?_eq_some_iff.mp hpeer).1]
    exact hpeer
  | received j _ h => exact hturn j _ h fun _ _ hf => (WebSocketSink.select_eq_some hf).1
  | delivered j ok hsent h => exact hturn j _ h fun _ hij _ => absurd (hij ▸ hsent) (he ok)
  | turned j f hf h => exact hturn j f h fun peer' _ hnext => (hf peer peer' hnext).1

/-- A sink does not close while one of its peers waits for its stream. -/
theorem sends_end {events : List (WebSocketSink.Event α)} (hpeer : s.peers[i]? = some peer)
    (hbusy : atStream peer = true) (h : run Sink.handle s events = some t) (hclosed : Closed t) :
    ∃ ok, .sent i ok ∈ events := by
  obtain ⟨hconnected, hsending⟩ := Bool.and_eq_true_iff.mp hbusy
  induction events generalizing s with
  | nil =>
    cases h
    rw [hclosed.2 peer (List.mem_of_getElem? hpeer)] at hconnected
    cases hconnected
  | cons e events ih =>
    obtain ⟨s', he, hrest⟩ := run_cons_eq_some.mp h
    by_cases hmine : ∃ ok, e = .sent i ok
    · obtain ⟨ok, rfl⟩ := hmine
      exact ⟨ok, List.mem_cons_self⟩
    · obtain ⟨ok, hmem⟩ := ih (sending_stays hpeer hsending (fun ok => mt (⟨ok, ·⟩) hmine) he) hrest
      exact ⟨ok, List.mem_cons_of_mem _ hmem⟩

/-- **A shutdown can be completed once the sends end.** From any state in which
the loops have been told to stop, however the handshake and the sends under way
end: a turn of each loop after them leads to a closed sink, and nothing is sent
meanwhile. Without the end of a send under way the sink does not close. -/
theorem shutdown_completes (s : Sink α) (hterm : s.term = true) (ok : Bool) (sends : Nat → Bool) :
    (∃ events t, events.length ≤ s.peers.length + 3 + s.peers.countP atStream ∧
      (∀ e ∈ events, Stopping ok sends e) ∧ run Sink.handle s events = some t ∧ Closed t ∧
      t.pipe = s.pipe) ∧
    ∀ (i : Nat) (peer : Peer α), s.peers[i]? = some peer → atStream peer = true →
      ∀ events t, run Sink.handle s events = some t → Closed t → ∃ ok, .sent i ok ∈ events := by
  refine ⟨?_, fun i peer hpeer hbusy events t h hclosed => sends_end hpeer hbusy h hclosed⟩
  cases hlistener : s.listener with
  | stopped =>
    obtain ⟨events, t, hlength, hevents, hrun, hgone, hstopped, hpipe⟩ :=
      @stop_peers α s _ hterm rfl ok sends
    refine ⟨events, t, ?_, hevents, hrun, ⟨hstopped.trans hlistener, hgone⟩, hpipe⟩
    have hconnected : s.peers.countP Peer.connected ≤ s.peers.length := List.countP_le_length
    omega
  | accepting =>
    obtain ⟨events, t, hlength, hevents, hrun, hclosed, hpipe⟩ :=
      stop_accepting hterm hlistener ok sends
    exact ⟨events, t, by omega, hevents, hrun, hclosed, hpipe⟩
  | handshaking receiver =>
    -- the listener looks at the signal again only after the handshake
    obtain ⟨next, hstep, hnextterm, hnextlistener, hnextpeers, hnextbusy, hnextpipe⟩ :=
      end_handshake hlistener ok
    obtain ⟨events, t, hlength, hevents, hrun, hclosed, hpipe⟩ :=
      stop_accepting (hnextterm.trans hterm) hnextlistener ok sends
    refine ⟨.handshake ok :: events, t, ?_, ?_, run_cons_eq_some.mpr ⟨next, hstep, hrun⟩, hclosed,
      hpipe.trans hnextpipe⟩
    · rw [List.length_cons]
      omega
    · intro e he
      rcases List.mem_cons.mp he with rfl | he
      · exact .inl rfl
      · exact hevents e he

/-- A peer waits for its stream and another one is shaking hands. -/
theorem shutdown_completes_handshaking :
    ∃ s : Sink Nat,
      run Sink.handle (Sink.new WebSocketSink.broadcastCapacity) [.accept, .handshake true,
        .publish (.ok 7), .recv 0, .accept, .shutdown] = some s ∧
      (∃ events t, events.length ≤ 5 ∧ run Sink.handle s events = some t ∧ Closed t) ∧
      ∀ events t, run Sink.handle s events = some t → Closed t → ∃ ok, .sent 0 ok ∈ events := by
  refine exists_run (fun s : Sink Nat => (s.term, s.peers))
    (v := (true, [⟨0, ⟨1⟩, some 7, [], [], true⟩])) rfl fun s _ hv => ?_
  obtain ⟨hterm, hpeers⟩ := Prod.mk.inj hv
  obtain ⟨⟨events, t, hlength, _, hrun, hclosed, _⟩, hsends⟩ :=
    shutdown_completes s hterm true fun _ => true
  rw [hpeers] at hlength hsends
  exact ⟨⟨events, t, hlength, hrun, hclosed⟩, hsends 0 _ rfl rfl⟩

end
end UnichainBuilder.Shutdown

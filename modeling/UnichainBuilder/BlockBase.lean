import UnichainBuilder.Job

/-! # The block base over consecutive jobs

`before_job` fills the slot `block_base`, the step empties it, `after_job`
clears it. The step takes the base before it knows whether the message goes
out, so the base reaches the subscribers exactly when the first message of
the job does. -/
namespace UnichainBuilder.BlockBase
open UnichainBuilder.Lib.RustStd UnichainBuilder.Lib.Runs UnichainBuilder.Block
open UnichainBuilder.Checkpoints UnichainBuilder.Publish UnichainBuilder.Job
open UnichainBuilder.Publish.PublishFlashblock (computeBase)

/-- A payload job between its two callbacks. -/
structure ServedJob (Tx : Type) where
  ctx : BlockContext
  startedAt : Instant
  prologue : List (Extension Tx)
  events : List (JobEvent Tx)
  endedAt : Instant

/-- The publisher, and the messages accepted in each job so far. -/
structure Server (Tx : Type) where
  publisher : PublishFlashblock
  served : List (ServedJob Tx × List OpFlashblockPayload)

/-! ## The messages of one job -/

/-- For each message of the job in turn, whether the sink accepts it. A
payload that fails to build makes no message. -/
def answers {Tx : Type} (events : List (JobEvent Tx)) : List Bool :=
  events.filterMap fun e => match e with
    | .rewrite _ => none
    | .step env => match env.buildPayload with
      | .error _ => none
      | .ok _ => some env.publish.isOk

/-- The bases of the accepted messages: the first message carries the base,
accepted or not. -/
def basesOf (base : OpFlashblockPayloadBase) : List Bool → List (Option OpFlashblockPayloadBase)
  | [] => []
  | first :: later => (if first then [some base] else []) ++ (later.filter id).map fun _ => none

/-- The first message carries the base and no later one does. -/
def OnlyFirst (base : OpFlashblockPayloadBase) :
    List (Option OpFlashblockPayloadBase) → Prop
  | [] => True
  | first :: later => first = some base ∧ ∀ b ∈ later, b = none

/-- The first message of the job is accepted, or none is. -/
def FirstOrNone (answers : List Bool) : Prop :=
  answers.head? = some true ∨ ∀ a ∈ answers, a = false

theorem basesOf_concat (base : OpFlashblockPayloadBase) (answers : List Bool) (accepted : Bool) :
    basesOf base (answers ++ [accepted]) = basesOf base answers ++
      if accepted then [if answers = [] then some base else none] else [] := by
  cases answers with
  | nil => cases accepted <;> rfl
  | cons first later => cases accepted <;> simp [basesOf]

theorem onlyFirst_basesOf_iff (base : OpFlashblockPayloadBase) (answers : List Bool) :
    OnlyFirst base (basesOf base answers) ↔ FirstOrNone answers := by
  cases answers with
  | nil => simp [basesOf, OnlyFirst, FirstOrNone]
  | cons first later =>
    cases first with
    | true => simp [basesOf, OnlyFirst, FirstOrNone]
    | false =>
      -- the base went with the rejected message, so no accepted one may follow
      have hlater : FirstOrNone (false :: later) ↔ later.filter id = [] := by
        simp [FirstOrNone, List.filter_eq_nil_iff]
      rw [hlater, basesOf]
      cases later.filter id with
      | nil => simp [OnlyFirst]
      | cons b rest => simp [OnlyFirst]

variable {Tx : Type} [Encodable2718 Tx]

/-- The slot holds the base until the first message, and the accepted
messages carry what the answers say. -/
structure SlotInv (base : OpFlashblockPayloadBase) (events : List (JobEvent Tx))
    (s : JobState Tx) : Prop where
  slot : s.publisher.blockBase = if answers events = [] then some base else none
  bases : s.accepted.map OpFlashblockPayload.base = basesOf base (answers events)

theorem SlotInv.handle {ctx : BlockContext} {base : OpFlashblockPayloadBase}
    {events : List (JobEvent Tx)} {e : JobEvent Tx} {s t : JobState Tx}
    (h : SlotInv base events s) (he : s.handle ctx e = some t) :
    SlotInv base (events ++ [e]) t := by
  cases e with
  | rewrite extensions =>
    cases he
    have hsame : answers (events ++ [.rewrite extensions]) = answers events := by simp [answers]
    exact ⟨by rw [hsame]; exact h.slot, by rw [hsame]; exact h.bases⟩
  | step env =>
    obtain ⟨r, hr, rfl⟩ := JobState.handle_step_eq_some.mp he
    cases PublishFlashblock.returns_of_step hr with
    | buildFailed build =>
      have hsame : answers (events ++ [.step env]) = answers events := by simp [answers, build]
      refine ⟨by rw [hsame]; exact h.slot, ?_⟩
      rw [hsame, Option.toList_none, List.append_nil]
      exact h.bases
    | rejected build root publish =>
      have hnext : answers (events ++ [.step env]) = answers events ++ [false] := by
        simp [answers, build, publish, Except.isOk, Except.toBool]
      refine ⟨by simp [hnext], ?_⟩
      rw [hnext, basesOf_concat, Option.toList_none, List.append_nil]
      simpa using h.bases
    | accepted build root publish next_eq =>
      have hnext : answers (events ++ [.step env]) = answers events ++ [true] := by
        simp [answers, build, publish, Except.isOk, Except.toBool]
      refine ⟨by simp [hnext], ?_⟩
      rw [hnext, basesOf_concat, List.map_append, h.bases]
      simp [PublishFlashblock.message, h.slot]

theorem slotInv_of_run {ctx : BlockContext} {publisher : PublishFlashblock} {now : Instant}
    {prologue : List (Extension Tx)} {events : List (JobEvent Tx)} {s : JobState Tx}
    (h : run (JobState.handle ctx) (JobState.enter (publisher.beforeJob ctx now) prologue) events =
      some s) : SlotInv (computeBase ctx) events s :=
  run_history (P := SlotInv (computeBase ctx)) (fun _ _ _ _ hs he => hs.handle he) ⟨rfl, rfl⟩ h

/-! ## Job after job -/

namespace Server

def serve (s : Server Tx) (job : ServedJob Tx) : Option (Server Tx) :=
  (run (JobState.handle job.ctx)
    (JobState.enter (s.publisher.beforeJob job.ctx job.startedAt) job.prologue) job.events).map
      fun t => {
        publisher := t.publisher.afterJob job.endedAt
        served := s.served ++ [(job, t.accepted)] }

/-- Each job served so far published what its own answers say, whatever the
jobs before it left in the slot. -/
structure Served (jobs : List (ServedJob Tx)) (s : Server Tx) : Prop where
  jobs : s.served.map Prod.fst = jobs
  bases : ∀ x ∈ s.served,
    x.2.map OpFlashblockPayload.base = basesOf (computeBase x.1.ctx) (answers x.1.events)

theorem Served.serve {jobs : List (ServedJob Tx)} {job : ServedJob Tx} {s t : Server Tx}
    (h : Served jobs s) (he : s.serve job = some t) : Served (jobs ++ [job]) t := by
  obtain ⟨u, hu, rfl⟩ := Option.map_eq_some_iff.mp he
  refine ⟨by simp [h.jobs], fun x hm => ?_⟩
  rcases List.mem_append.mp hm with hm | hm
  · exact h.bases x hm
  · obtain rfl := List.mem_singleton.mp hm
    exact (slotInv_of_run hu).bases

end Server

/-- **When each job's base reaches the subscribers.** In every sequence of
jobs, the first accepted message of each carries the base of its own
`before_job` and no later one does, exactly when in each job the sink accepts
the first message or none at all. -/
theorem base_on_first_iff {publisher : PublishFlashblock} {jobs : List (ServedJob Tx)}
    {s : Server Tx} (h : run Server.serve ⟨publisher, []⟩ jobs = some s) :
    (∀ x ∈ s.served, OnlyFirst (computeBase x.1.ctx) (x.2.map OpFlashblockPayload.base)) ↔
      ∀ job ∈ jobs, FirstOrNone (answers job.events) := by
  have hserved : Server.Served jobs s :=
    run_history (P := Server.Served) (fun _ _ _ _ hs he => hs.serve he)
      ⟨rfl, fun x hm => by cases hm⟩ h
  rw [← hserved.jobs, List.forall_mem_map]
  refine forall₂_congr fun x hm => ?_
  rw [hserved.bases x hm, onlyFirst_basesOf_iff]

/-- Two jobs in which a later message is rejected. -/
theorem base_on_first_two_jobs :
    let events : List (JobEvent Bytes) :=
      [.step (.withSink (.ok 0)), .step (.withSink (.error "closed")), .step (.withSink (.ok 0))]
    let next : BlockContext := { (default : BlockContext) with number := 1 }
    ∃ s : Server Bytes,
      run Server.serve ⟨{}, []⟩ [⟨default, ⟨0⟩, [], events, ⟨1⟩⟩, ⟨next, ⟨2⟩, [], events, ⟨3⟩⟩] =
        some s ∧
      ∀ x ∈ s.served, OnlyFirst (computeBase x.1.ctx) (x.2.map OpFlashblockPayload.base) := by
  intro events next
  refine exists_run (fun s => s.served.length) (v := 2) rfl fun s hs _ => ?_
  refine (base_on_first_iff hs).mpr fun job hm => ?_
  simp only [List.mem_cons, List.not_mem_nil, or_false] at hm
  rcases hm with rfl | rfl <;> exact .inl rfl

/-- The first message is rejected once: the one published in its place has
no base. -/
theorem base_lost_after_rejection :
    let job : ServedJob Bytes := ⟨default, ⟨0⟩, [],
      [.step (.withSink (.error "closed")), .step (.withSink (.ok 0))], ⟨1⟩⟩
    ∃ s : Server Bytes, run Server.serve ⟨{}, []⟩ [job] = some s ∧
      s.served.map (fun x => x.2.map OpFlashblockPayload.base) = [[none]] ∧
      ¬ ∀ x ∈ s.served, OnlyFirst (computeBase x.1.ctx) (x.2.map OpFlashblockPayload.base) := by
  intro job
  refine exists_run (fun s => s.served.map fun x => x.2.map OpFlashblockPayload.base)
    (v := [[none]]) rfl fun s _ hserved => ⟨hserved, fun hall => ?_⟩
  obtain ⟨x, hx, hbases⟩ := List.mem_map.mp (hserved ▸ List.mem_singleton_self [none])
  have hfirst := hall x hx
  rw [hbases] at hfirst
  cases hfirst.1

end UnichainBuilder.BlockBase

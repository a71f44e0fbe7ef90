import Mathlib.Data.List.Sort
import UnichainBuilder.Subscribers

/-! # The observer

`WebSocketObserver` of the test framework: a peer that keeps what its stream
yields, and the time, and finds the flashblocks of a block among it. -/
namespace UnichainBuilder.Observer
open UnichainBuilder.Lib.RustStd UnichainBuilder.Lib.Runs UnichainBuilder.Lib.Broadcast
open UnichainBuilder.Block UnichainBuilder.Checkpoints UnichainBuilder.Publish
open UnichainBuilder.Service UnichainBuilder.ServiceChannel UnichainBuilder.Subscribers
open UnichainBuilder.WebSocketSink (Peer)
open UnichainBuilder.Publish.PublishFlashblock (computeBase)

structure ObservedFlashblock where
  block : OpFlashblockPayload
  observedAt : Instant
  deriving DecidableEq, Repr

inductive Message
  | text (utf8Bytes : Utf8Bytes)
  /-- Binary data, pings, pongs and the closing of the connection. -/
  | other
  deriving DecidableEq, Repr

structure Observations where
  /-- How many there were. -/
  errors : Nat := 0
  messages : List Message := []
  flashblocks : List ObservedFlashblock := []
  deriving DecidableEq, Repr

/-- What the stream yields, a message or an error, and when. -/
structure Reading where
  message : Option Message
  now : Instant
  deriving DecidableEq, Repr

namespace Observations

def hasNoErrors (self : Observations) : Bool := self.errors = 0

def recordFlashblock (self : Observations) (payload : OpFlashblockPayload) (now : Instant) :
    Observations :=
  { self with flashblocks := self.flashblocks ++ [⟨payload, now⟩] }

def recordMessage (json : PayloadJson) (self : Observations) (msg : Message) (now : Instant) :
    Observations :=
  let self := match msg with
    | .text string => match json.fromStr string with
      | some fbPayload => self.recordFlashblock fbPayload now
      | none => { self with errors := self.errors + 1 }
    | .other => self
  { self with messages := self.messages ++ [msg] }

def recordWs (json : PayloadJson) (self : Observations) (reading : Reading) : Observations :=
  match reading.message with
  | some msg => self.recordMessage json msg reading.now
  | none => { self with errors := self.errors + 1 }

def byBlockNumber (self : Observations) (blockNumber : UInt64) :
    Except Panic (List ObservedFlashblock) := do
  -- only the base flashblock contains the block number
  let baseFlashblock ← expect
    (self.flashblocks.find? fun fb => fb.block.base.any fun b => b.blockNumber = blockNumber)
    s!"no base flashblock found for block {blockNumber}"
  return (self.flashblocks.filter fun fb =>
    fb.block.payloadId = baseFlashblock.block.payloadId).insertionSort fun a b =>
      a.observedAt.nanos ≤ b.observedAt.nanos

end Observations

def observe (json : PayloadJson) (readings : List Reading) : Observations :=
  readings.foldl (fun self reading => self.recordWs json reading) {}

/-! ## What was recorded -/

def Reading.text (reading : Reading) : Option Utf8Bytes :=
  match reading.message with
  | some (.text utf8Bytes) => some utf8Bytes
  | _ => none

def Reading.flashblock (json : PayloadJson) (reading : Reading) : Option ObservedFlashblock :=
  (reading.text.bind json.fromStr).map fun block => ⟨block, reading.now⟩

theorem flashblocks_recordWs (json : PayloadJson) (self : Observations) (reading : Reading) :
    (self.recordWs json reading).flashblocks =
      self.flashblocks ++ (reading.flashblock json).toList := by
  unfold Observations.recordWs Reading.flashblock Reading.text
  cases reading.message with
  | none => simp
  | some msg =>
    cases msg with
    | text utf8Bytes =>
      cases hread : json.fromStr utf8Bytes with
      | none => simp [Observations.recordMessage, hread]
      | some block => simp [Observations.recordMessage, Observations.recordFlashblock, hread]
    | other => simp [Observations.recordMessage]

theorem flashblocks_foldl (json : PayloadJson) (readings : List Reading) (self : Observations) :
    (readings.foldl (fun self reading => self.recordWs json reading) self).flashblocks =
      self.flashblocks ++ readings.filterMap (Reading.flashblock json) := by
  induction readings generalizing self with
  | nil => simp
  | cons reading readings ih =>
    rw [List.foldl_cons, ih, flashblocks_recordWs, List.append_assoc, List.filterMap_cons]
    cases reading.flashblock json with
    | none => simp
    | some fb => simp

theorem flashblocks_observe (json : PayloadJson) (readings : List Reading) :
    (observe json readings).flashblocks = readings.filterMap (Reading.flashblock json) :=
  flashblocks_foldl json readings {}

theorem blocks_observe (json : PayloadJson) (readings : List Reading) :
    (observe json readings).flashblocks.map ObservedFlashblock.block =
      (readings.filterMap Reading.text).filterMap json.fromStr := by
  rw [flashblocks_observe, List.map_filterMap, List.filterMap_filterMap]
  refine List.filterMap_congr fun reading _ => ?_
  simp [Reading.flashblock, Function.comp_def]

/-- With a clock that does not go back the sort moves nothing. -/
theorem byBlockNumber_eq_ok {json : PayloadJson} {readings : List Reading} {blockNumber : UInt64}
    {found : List ObservedFlashblock}
    (hclock : readings.Pairwise fun a b => a.now.nanos ≤ b.now.nanos)
    (h : (observe json readings).byBlockNumber blockNumber = .ok found) :
    ∃ fb b, fb ∈ found ∧ fb.block.base = some b ∧ b.blockNumber = blockNumber ∧
      found.map ObservedFlashblock.block =
        json.flashblocksOf fb.block.payloadId (readings.filterMap Reading.text) := by
  obtain ⟨fb, hfind, hrest⟩ := bind_eq_ok.mp h
  have hfound := expect_eq_ok.mp hfind
  have hbase := List.find?_some hfound
  obtain ⟨b, hb, hnumber⟩ := (Option.any_eq_true _ _).mp hbase
  have hsorted : ((observe json readings).flashblocks.filter fun x =>
      x.block.payloadId = fb.block.payloadId).Pairwise
        fun a b => a.observedAt.nanos ≤ b.observedAt.nanos := by
    refine List.Pairwise.filter _ ?_
    rw [flashblocks_observe]
    refine List.Pairwise.filterMap _ (fun a b hab x hx y hy => ?_) hclock
    obtain ⟨_, _, rfl⟩ := Option.map_eq_some_iff.mp hx
    obtain ⟨_, _, rfl⟩ := Option.map_eq_some_iff.mp hy
    exact hab
  have hsame := pure_eq_ok.mp hrest
  rw [hsorted.insertionSort_eq] at hsame
  refine ⟨fb, b, ?_, hb, of_decide_eq_true hnumber, ?_⟩
  · rw [← hsame]
    exact List.mem_filter.mpr ⟨List.mem_of_find?_eq_some hfound, by simp⟩
  · rw [← hsame, PayloadJson.flashblocksOf, ← blocks_observe, List.filter_map]
    rfl

/-- What is found bears the id that it was found by. -/
theorem payloadId_of_blocks {json : PayloadJson} {found : List ObservedFlashblock} {id : PayloadId}
    {texts : List Utf8Bytes}
    (hblocks : found.map ObservedFlashblock.block = json.flashblocksOf id texts) :
    ∀ fb ∈ found, fb.block.payloadId = id := by
  intro fb hfb
  have hblock := List.mem_map_of_mem (f := ObservedFlashblock.block) hfb
  rw [hblocks] at hblock
  exact of_decide_eq_true (List.mem_filter.mp hblock).2

/-! ## A block found again -/

variable {Tx : Type} [Encodable2718 Tx] {json : PayloadJson} {s : Node Tx}

omit [Encodable2718 Tx] in
theorem unique_of_nodup (hids : s.ids.Nodup) {i : Nat} {job : PayloadJob Tx}
    (get : s.jobs[i]? = some job) : s.Unique i := by
  intro k hk
  have hi : s.ids[i]? = some job.ctx.payloadId := by simp [Node.ids, get]
  rw [hi] at hk
  exact (List.getElem?_inj (List.getElem?_eq_some_iff.mp hk).1 hids).mp (hk.trans hi.symm)

section
variable {readings : List Reading} {blockNumber : UInt64} {found : List ObservedFlashblock}

/-- What is found bears the id of a job, since the channel carries no others. -/
theorem job_of_found (hs : Invariant json s) {start : Nat}
    (htexts : readings.filterMap Reading.text <+: s.sink.pipe.sent.drop start)
    (hclock : readings.Pairwise fun a b => a.now.nanos ≤ b.now.nanos)
    (hfound : (observe json readings).byBlockNumber blockNumber = .ok found) :
    ∃ (i : Nat) (job : PayloadJob Tx), s.jobs[i]? = some job ∧
      found.map ObservedFlashblock.block =
        json.flashblocksOf job.ctx.payloadId (readings.filterMap Reading.text) ∧
      ∃ fb ∈ found, ∃ b, fb.block.base = some b ∧ b.blockNumber = blockNumber := by
  obtain ⟨fb, b, hmem, hb, hnumber, hblocks⟩ := byBlockNumber_eq_ok hclock hfound
  have hblock : fb.block ∈
      json.flashblocksOf fb.block.payloadId (readings.filterMap Reading.text) := by
    rw [← hblocks]
    exact List.mem_map_of_mem hmem
  have hid : fb.block.payloadId ∈ s.ids := by
    by_contra hnot
    have hsent : (readings.filterMap Reading.text).Sublist s.sink.pipe.sent :=
      htexts.sublist.trans (List.drop_sublist _ _)
    have hsent := (PayloadJson.flashblocksOf_sublist hsent).subset hblock
    rw [hs.known _ hnot] at hsent
    exact List.not_mem_nil hsent
  obtain ⟨job, hjob, hjobid⟩ := List.mem_map.mp hid
  obtain ⟨i, get⟩ := List.mem_iff_getElem?.mp hjob
  exact ⟨i, job, get, by rw [hblocks, ← hjobid], fb, hmem, b, hb, hnumber⟩

omit [Encodable2718 Tx] in
/-- A base that its own job has sent is that of the block. -/
theorem number_of_own_base {job : PayloadJob Tx}
    (hseen : found.map ObservedFlashblock.block <+: job.accepted)
    (hbase : ∃ fb ∈ found, ∃ b, fb.block.base = some b ∧ b.blockNumber = blockNumber)
    (hown : ∀ m ∈ job.accepted, ∀ b ∈ m.base, b = computeBase job.ctx) :
    job.ctx.number = blockNumber := by
  obtain ⟨fb, hmem, b, hb, hnumber⟩ := hbase
  have hcomputed := hown fb.block (hseen.subset (List.mem_map_of_mem hmem)) b hb
  rw [← hnumber, hcomputed]
  rfl

end

/-- The observer has read two flashblocks, one of either job, and a ping. -/
def overlappingReadings : List Reading :=
  [⟨some (.text (PayloadJson.text (flashblockOf 1 0 [[1]] (some default)))), ⟨5⟩⟩,
    ⟨some .other, ⟨6⟩⟩,
    ⟨some (.text (PayloadJson.text (flashblockOf 2 0 [[2]] (some default)))), ⟨7⟩⟩]

theorem flashblock_text {messages : List OpFlashblockPayload}
    {hdiffer : (messages.map fun m => (PayloadJson.text m).take 64).Nodup}
    {m : OpFlashblockPayload} (h : m ∈ messages) (now : Instant) :
    Reading.flashblock (.known messages hdiffer) ⟨some (.text (PayloadJson.text m)), now⟩ =
      some ⟨m, now⟩ := by
  have hread : (PayloadJson.known messages hdiffer).fromStr (PayloadJson.text m) = some m :=
    (PayloadJson.known messages hdiffer).fromStr_toString (by simp [PayloadJson.known, h])
  simp [Reading.flashblock, Reading.text, hread]

end UnichainBuilder.Observer

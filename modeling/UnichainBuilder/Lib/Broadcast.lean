import Mathlib.Data.List.Basic

/-! # A bounded broadcast channel

Every receiver reads at its own position. The channel keeps the last messages
up to its capacity; a receiver whose position has been overwritten is told so
once and goes on at the oldest message that is left. What a receiver has got is
accounted for by its positions: where it began, where it is, and what it was
made to skip. -/
namespace UnichainBuilder.Lib.Broadcast

universe u
variable {α : Type u}

/-- A channel, by everything that was ever sent on it. -/
structure Channel (α : Type u) where
  capacity : Nat
  sent : List α

/-- The position of the next message to read. -/
structure Receiver where
  next : Nat
  deriving DecidableEq, Repr

inductive Recv (α : Type u)
  | ok (message : α)
  | lagged (missed : Nat)
  /-- Nothing to read yet. -/
  | empty

namespace Channel

/-- The position of the oldest message that is kept. -/
def oldest (ch : Channel α) : Nat := ch.sent.length - ch.capacity

def send (ch : Channel α) (message : α) : Channel α := { ch with sent := ch.sent ++ [message] }

/-- A receiver of what is sent from now on. -/
def subscribe (ch : Channel α) : Receiver := ⟨ch.sent.length⟩

def recv (ch : Channel α) (r : Receiver) : Recv α × Receiver :=
  if r.next < ch.oldest then (.lagged (ch.oldest - r.next), ⟨ch.oldest⟩)
  else match ch.sent[r.next]? with
    | some message => (.ok message, ⟨r.next + 1⟩)
    | none => (.empty, r)

/-- The messages at some positions. -/
def messages (ch : Channel α) (positions : List Nat) : List α :=
  positions.filterMap fun q => ch.sent[q]?

variable {ch : Channel α} {r r' : Receiver} {message : α}

theorem recv_eq_ok (h : ch.recv r = (.ok message, r')) :
    ch.sent[r.next]? = some message ∧ r' = ⟨r.next + 1⟩ := by
  unfold recv at h
  split at h
  · cases h
  · split at h
    · rename_i a ha
      cases h
      exact ⟨ha, rfl⟩
    · cases h

/-- A receiver lags when more messages are waiting than are kept. -/
theorem recv_eq_lagged {missed : Nat} (h : ch.recv r = (.lagged missed, r')) :
    r.next + ch.capacity < ch.sent.length ∧ missed = ch.oldest - r.next ∧ r' = ⟨ch.oldest⟩ := by
  unfold recv at h
  split at h
  · rename_i hlt
    cases h
    exact ⟨by unfold oldest at hlt; omega, rfl, rfl⟩
  · split at h
    · cases h
    · cases h

theorem oldest_le_length (ch : Channel α) : ch.oldest ≤ ch.sent.length := Nat.sub_le _ _

theorem messages_append (ch : Channel α) (p q : List Nat) :
    ch.messages (p ++ q) = ch.messages p ++ ch.messages q :=
  List.filterMap_append

/-- Sending moves no message. -/
theorem messages_send {positions : List Nat} (h : ∀ q ∈ positions, q < ch.sent.length) :
    (ch.send message).messages positions = ch.messages positions :=
  List.filterMap_congr fun q hq => List.getElem?_append_left (h q hq)

theorem messages_range' (ch : Channel α) (start n : Nat) :
    ch.messages (List.range' start n) = (ch.sent.drop start).take n := by
  induction n generalizing start with
  | zero => rfl
  | succ n ih =>
    rw [List.range'_succ, messages, List.filterMap_cons]
    cases hget : ch.sent[start]? with
    | none =>
      have hlen := List.getElem?_eq_none_iff.mp hget
      have hnone : ch.messages (List.range' (start + 1) n) = [] := by
        rw [ih, List.drop_eq_nil_of_le (by omega), List.take_nil]
      rw [List.drop_eq_nil_of_le hlen, List.take_nil]
      exact hnone
    | some a =>
      obtain ⟨hlt, ha⟩ := List.getElem?_eq_some_iff.mp hget
      rw [List.drop_eq_getElem_cons hlt, List.take_succ_cons, ha, ← ih]
      rfl

end Channel

/-! ## The account of a receiver -/

/-- The positions from `start` up to `next` that were not skipped. -/
def delivered (start next : Nat) (skipped : List Nat) : List Nat :=
  (List.range' start (next - start)).filter fun q => q ∉ skipped

section
variable {start next next' q : Nat} {skipped : List Nat}

theorem mem_delivered (h : start ≤ next) :
    q ∈ delivered start next skipped ↔ start ≤ q ∧ q < next ∧ q ∉ skipped := by
  rw [delivered, List.mem_filter, List.mem_range'_1, decide_eq_true_eq, Nat.add_sub_cancel' h,
    and_assoc]

theorem range'_split (hstart : start ≤ next) (hnext : next ≤ next') :
    List.range' start (next' - start) =
      List.range' start (next - start) ++ List.range' next (next' - next) := by
  have happend := List.range'_append_1 (s := start) (m := next - start) (n := next' - next)
  rw [Nat.add_sub_cancel' hstart] at happend
  rw [happend]
  congr 1
  omega

/-- Reading the next message. -/
theorem delivered_succ (hstart : start ≤ next) (hskipped : ∀ q ∈ skipped, q < next) :
    delivered start (next + 1) skipped = delivered start next skipped ++ [next] := by
  have hnot : next ∉ skipped := fun hm => Nat.lt_irrefl _ (hskipped next hm)
  rw [delivered, range'_split hstart (Nat.le_succ next), List.filter_append, ← delivered,
    Nat.succ_sub (Nat.le_refl next), Nat.sub_self]
  simp [hnot]

/-- Skipping some. -/
theorem delivered_skip (hstart : start ≤ next) (hnext : next ≤ next') :
    delivered start next' (skipped ++ List.range' next (next' - next)) =
      delivered start next skipped := by
  have hread : (List.range' start (next - start)).filter
      (fun q => q ∉ skipped ++ List.range' next (next' - next)) = delivered start next skipped := by
    refine List.filter_congr fun q hq => ?_
    have hlt := (List.mem_range'_1.mp hq).2
    have hnot : q ∉ List.range' next (next' - next) := by
      rw [List.mem_range'_1]
      omega
    simp only [List.mem_append, hnot, or_false]
  have hmissed : (List.range' next (next' - next)).filter
      (fun q => q ∉ skipped ++ List.range' next (next' - next)) = [] := by
    refine List.filter_eq_nil_iff.mpr fun q hq => ?_
    simp [-List.mem_range'_1, hq]
  rw [delivered, range'_split hstart hnext, List.filter_append, hread, hmissed, List.append_nil]

end

/-- `got` is what a receiver has read since it was at `start`. -/
structure Account (ch : Channel α) (start : Nat) (r : Receiver) (skipped : List Nat)
    (got : List α) : Prop where
  start_le : start ≤ r.next
  next_le : r.next ≤ ch.sent.length
  skipped_lt : ∀ q ∈ skipped, q < r.next
  overwritten : ∀ q ∈ skipped, q + ch.capacity < ch.sent.length
  got_eq : got = ch.messages (delivered start r.next skipped)

namespace Account
variable {ch : Channel α} {start : Nat} {r r' : Receiver} {skipped : List Nat} {got : List α}

theorem subscribe (ch : Channel α) : Account ch ch.sent.length ch.subscribe [] [] where
  start_le := Nat.le_refl _
  next_le := Nat.le_refl _
  skipped_lt := by simp
  overwritten := by simp
  got_eq := by simp [Channel.subscribe, delivered, Channel.messages]

theorem send (h : Account ch start r skipped got) (message : α) :
    Account (ch.send message) start r skipped got where
  start_le := h.start_le
  next_le := by
    rw [Channel.send, List.length_append]
    exact Nat.le_add_right_of_le h.next_le
  skipped_lt := h.skipped_lt
  overwritten q hq := by
    rw [Channel.send, List.length_append]
    exact Nat.lt_add_right _ (h.overwritten q hq)
  got_eq := by
    rw [h.got_eq, Channel.messages_send]
    intro q hq
    exact Nat.lt_of_lt_of_le ((mem_delivered h.start_le).mp hq).2.1 h.next_le

theorem recv_ok (h : Account ch start r skipped got) {message : α}
    (hrecv : ch.recv r = (.ok message, r')) : Account ch start r' skipped (got ++ [message]) := by
  obtain ⟨hget, rfl⟩ := Channel.recv_eq_ok hrecv
  refine ⟨Nat.le_succ_of_le h.start_le, (List.getElem?_eq_some_iff.mp hget).1,
    fun q hq => Nat.lt_succ_of_lt (h.skipped_lt q hq), h.overwritten, ?_⟩
  rw [delivered_succ h.start_le h.skipped_lt, Channel.messages_append, ← h.got_eq]
  simp [Channel.messages, hget]

/-- What a receiver misses has been overwritten. -/
theorem recv_lagged (h : Account ch start r skipped got) {missed : Nat}
    (hrecv : ch.recv r = (.lagged missed, r')) :
    Account ch start r' (skipped ++ List.range' r.next missed) got := by
  obtain ⟨hbehind, rfl, rfl⟩ := Channel.recv_eq_lagged hrecv
  have hnext : r.next ≤ ch.oldest := by
    unfold Channel.oldest
    omega
  refine ⟨Nat.le_trans h.start_le hnext, ch.oldest_le_length, fun q hq => ?_, fun q hq => ?_, ?_⟩
  · rcases List.mem_append.mp hq with hq | hq
    · exact Nat.lt_of_lt_of_le (h.skipped_lt q hq) hnext
    · have hlt := (List.mem_range'_1.mp hq).2
      rwa [Nat.add_sub_cancel' hnext] at hlt
  · rcases List.mem_append.mp hq with hq | hq
    · exact h.overwritten q hq
    · have hlt := (List.mem_range'_1.mp hq).2
      rw [Nat.add_sub_cancel' hnext] at hlt
      unfold Channel.oldest at hlt
      omega
  · rw [delivered_skip h.start_le hnext, h.got_eq]

/-- In order, and nothing twice. -/
theorem sublist (h : Account ch start r skipped got) : got.Sublist (ch.sent.drop start) := by
  rw [h.got_eq]
  have hall : (ch.messages (delivered start r.next skipped)).Sublist
      (ch.messages (List.range' start (r.next - start))) :=
    List.filter_sublist.filterMap _
  rw [Channel.messages_range'] at hall
  exact hall.trans (List.take_sublist _ _)

/-- Everything since the start, once nothing is waiting. -/
theorem eq_drop (h : Account ch start r [] got) (hnone : r.next = ch.sent.length) :
    got = ch.sent.drop start := by
  have hall : delivered start r.next [] = List.range' start (r.next - start) := by
    simp [delivered]
  rw [h.got_eq, hall, Channel.messages_range', hnone]
  exact List.take_of_length_le (Nat.le_of_eq List.length_drop)

/-- Without a hole, as long as nothing was skipped. -/
theorem isPrefix (h : Account ch start r [] got) : got <+: ch.sent.drop start := by
  have hall : delivered start r.next [] = List.range' start (r.next - start) := by
    simp [delivered]
  rw [h.got_eq, hall, Channel.messages_range']
  exact List.take_prefix _ _

end Account
end UnichainBuilder.Lib.Broadcast

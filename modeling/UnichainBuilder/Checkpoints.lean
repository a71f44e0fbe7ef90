import Mathlib.Data.List.DropRight
import UnichainBuilder.State
import UnichainBuilder.Block

/-! # Payload checkpoints

What the builder relies on of the payload library. A payload is the history
of its checkpoints, oldest first, from a root barrier that carries the
default context. Applying an order and placing a plain barrier inherit the
context of the tip; `barrierWithContext` replaces it. Steps that rewrite the
payload start again from the last barrier. -/
namespace UnichainBuilder.Checkpoints
open UnichainBuilder.State UnichainBuilder.Block

inductive Executable (Tx : Type)
  | transaction (tx : Tx)
  | bundle (txs : List Tx)

inductive Mutation (Tx : Type)
  | barrier
  | executed (order : Executable Tx) (gasUsed blobGasUsed : UInt64)

structure Checkpoint (Tx : Type) where
  mutation : Mutation Tx
  context : FlashblockNumber

abbrev Span (Tx : Type) := List (Checkpoint Tx)

namespace Checkpoint
variable {Tx : Type}

def root : Checkpoint Tx := ⟨.barrier, default⟩

def isBarrier (c : Checkpoint Tx) : Bool :=
  match c.mutation with
  | .barrier => true
  | .executed .. => false

def isBundle (c : Checkpoint Tx) : Bool :=
  match c.mutation with
  | .executed (.bundle _) _ _ => true
  | _ => false

def transactions (c : Checkpoint Tx) : List Tx :=
  match c.mutation with
  | .barrier => []
  | .executed (.transaction tx) _ _ => [tx]
  | .executed (.bundle txs) _ _ => txs

def gasUsed (c : Checkpoint Tx) : Nat :=
  match c.mutation with
  | .barrier => 0
  | .executed _ gas _ => gas.toNat

def blobGasUsed (c : Checkpoint Tx) : Nat :=
  match c.mutation with
  | .barrier => 0
  | .executed _ _ gas => gas.toNat

theorem mutation_of_isBarrier {c : Checkpoint Tx} (h : c.isBarrier = true) :
    c.mutation = .barrier := by
  unfold isBarrier at h
  split at h
  · assumption
  · cases h

theorem transactions_of_isBarrier {c : Checkpoint Tx} (h : c.isBarrier = true) :
    c.transactions = [] := by
  unfold isBarrier at h
  unfold transactions
  split at h
  · rename_i hb; rw [hb]
  · cases h

end Checkpoint

namespace Span
variable {Tx : Type}

def transactions (s : Span Tx) : List Tx := s.flatMap Checkpoint.transactions

def gasUsed (s : Span Tx) : Nat := s.foldl (fun gas c => gas + c.gasUsed) 0

def blobGasUsed (s : Span Tx) : Nat := s.foldl (fun gas c => gas + c.blobGasUsed) 0

theorem transactions_append (s t : Span Tx) :
    transactions (s ++ t) = transactions s ++ transactions t := List.flatMap_append

theorem transactions_singleton_barrier {c : Checkpoint Tx} (h : c.isBarrier = true) :
    transactions [c] = [] := by
  simp [transactions, Checkpoint.transactions_of_isBarrier h]

end Span

structure Payload (Tx : Type) where
  history : Span Tx
  rooted : history.head? = some Checkpoint.root

/-- What another step of the pipeline appends to a payload. -/
inductive Extension (Tx : Type)
  | apply (order : Executable Tx) (gasUsed blobGasUsed : UInt64)
  | barrier

def Extension.mutation {Tx : Type} : Extension Tx → Mutation Tx
  | .apply order gas blobGas => .executed order gas blobGas
  | .barrier => .barrier

def Extension.transactions {Tx : Type} (e : Extension Tx) : List Tx :=
  Checkpoint.transactions ⟨e.mutation, default⟩

namespace Payload
variable {Tx : Type}

theorem history_ne_nil (p : Payload Tx) : p.history ≠ [] := by
  intro h
  have := p.rooted
  rw [h] at this
  cases this

def new : Payload Tx := ⟨[Checkpoint.root], rfl⟩

def tip (p : Payload Tx) : Checkpoint Tx := p.history.getLast p.history_ne_nil

def context (p : Payload Tx) : FlashblockNumber := p.tip.context

def transactions (p : Payload Tx) : List Tx := Span.transactions p.history

def push (p : Payload Tx) (c : Checkpoint Tx) : Payload Tx where
  history := p.history ++ [c]
  rooted := by rw [List.head?_append, p.rooted]; rfl

def barrierWithContext (p : Payload Tx) (context : FlashblockNumber) : Payload Tx :=
  p.push ⟨.barrier, context⟩

def extend (p : Payload Tx) (e : Extension Tx) : Payload Tx := p.push ⟨e.mutation, p.context⟩

def extendAll (p : Payload Tx) (es : List (Extension Tx)) : Payload Tx := es.foldl extend p

/-- The payload cut back to its last barrier, the root included. -/
def lastBarrier (p : Payload Tx) : Payload Tx where
  history := p.history.rdropWhile fun c => !c.isBarrier
  rooted := by
    have hpre := List.rdropWhile_prefix (fun c : Checkpoint Tx => !c.isBarrier) p.history
    have hne : p.history.rdropWhile (fun c => !c.isBarrier) ≠ [] := by
      rw [Ne, List.rdropWhile_eq_nil_iff]
      intro h
      have := h _ (List.mem_of_mem_head? p.rooted)
      simp [Checkpoint.isBarrier, Checkpoint.root] at this
    obtain ⟨c, rest, hc⟩ := List.exists_cons_of_ne_nil hne
    obtain ⟨dropped, hd⟩ := hpre
    have hroot := p.rooted
    rw [← hd, hc] at hroot
    rw [hc]
    exact hroot

/-- What the steps between two publications do: everything after the last
barrier is replaced. -/
def rewrite (p : Payload Tx) (es : List (Extension Tx)) : Payload Tx := p.lastBarrier.extendAll es

def historySinceFirstContext (p : Payload Tx) (context : FlashblockNumber) : Option (Span Tx) :=
  match p.history.dropWhile fun c => c.context ≠ context with
  | [] => none
  | span => some span

@[simp] theorem history_push (p : Payload Tx) (c : Checkpoint Tx) :
    (p.push c).history = p.history ++ [c] := rfl

@[simp] theorem context_push (p : Payload Tx) (c : Checkpoint Tx) :
    (p.push c).context = c.context := by
  simp [context, tip]

@[simp] theorem context_barrierWithContext (p : Payload Tx) (k : FlashblockNumber) :
    (p.barrierWithContext k).context = k := context_push _ _

@[simp] theorem context_extend (p : Payload Tx) (e : Extension Tx) :
    (p.extend e).context = p.context := context_push _ _

/-- Extending keeps the history and inherits the context. -/
theorem extendAll_spec (es : List (Extension Tx)) (p : Payload Tx) :
    ∃ tail, (p.extendAll es).history = p.history ++ tail ∧
      (∀ c ∈ tail, c.context = p.context) ∧ (p.extendAll es).context = p.context := by
  induction es generalizing p with
  | nil => exact ⟨[], by simp [extendAll], by simp, rfl⟩
  | cons e rest ih =>
    obtain ⟨tail, hh, ht, hc⟩ := ih (p.extend e)
    refine ⟨⟨e.mutation, p.context⟩ :: tail, ?_, ?_, hc.trans (context_extend p e)⟩
    · rw [extendAll, List.foldl_cons, ← extendAll, hh, extend, history_push, List.append_assoc]
      rfl
    · intro c hm
      rcases List.mem_cons.mp hm with rfl | hm
      · rfl
      · exact (ht c hm).trans (context_extend p e)

/-- Each extension becomes a checkpoint of the same context. -/
theorem history_extendAll (es : List (Extension Tx)) (p : Payload Tx) :
    (p.extendAll es).history = p.history ++ es.map fun e => ⟨e.mutation, p.context⟩ := by
  induction es generalizing p with
  | nil => simp [extendAll]
  | cons e rest ih =>
    rw [extendAll, List.foldl_cons, ← extendAll, ih, context_extend, extend, history_push,
      List.append_assoc]
    rfl

theorem lastBarrier_history {p : Payload Tx} {pre post : Span Tx} {b : Checkpoint Tx}
    (h : p.history = pre ++ b :: post) (hb : b.isBarrier = true) :
    ∃ kept, kept <+: post ∧ p.lastBarrier.history = pre ++ b :: kept := by
  refine ⟨post.rdropWhile fun c => !c.isBarrier, List.rdropWhile_prefix _ _, ?_⟩
  simp only [lastBarrier, h]
  clear h
  induction post using List.reverseRecOn with
  | nil => exact List.rdropWhile_concat_neg _ _ _ (by simp [hb])
  | append_singleton post c ih =>
    have happ : pre ++ b :: (post ++ [c]) = (pre ++ b :: post) ++ [c] := by simp
    rw [happ, List.rdropWhile_concat, List.rdropWhile_concat]
    split
    · exact ih
    · simp

theorem historySinceFirstContext_eq {p : Payload Tx} {pre post : Span Tx} {b : Checkpoint Tx}
    {k : FlashblockNumber} (h : p.history = pre ++ b :: post)
    (hpre : ∀ c ∈ pre, c.context ≠ k) (hb : b.context = k) :
    p.historySinceFirstContext k = some (b :: post) := by
  have hdrop : p.history.dropWhile (fun c => c.context ≠ k) = b :: post := by
    rw [h, List.dropWhile_append_of_pos (by simpa using hpre),
      List.dropWhile_cons_of_neg (by simp [hb])]
  simp only [historySinceFirstContext, hdrop]

end Payload
end UnichainBuilder.Checkpoints

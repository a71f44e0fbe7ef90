/-! # A log with a committed part and a pending tail

The purpose of incremental publication, in its own terms: batches are
committed one after another and never change again, while the tail that no
batch covers may be replaced freely. -/
namespace UnichainBuilder.Lib.CommitLog

universe u

structure Log (α : Type u) where
  committed : List (List α)
  pending : List α

inductive Op (α : Type u)
  | stage (items : List α)
  | commit

namespace Log
variable {α : Type u}

def contents (l : Log α) : List α := l.committed.flatten ++ l.pending

def apply (l : Log α) : Op α → Log α
  | .stage items => { l with pending := items }
  | .commit => ⟨l.committed ++ [l.pending], []⟩

def applyAll (l : Log α) (ops : List (Op α)) : Log α := ops.foldl apply l

/-- A commit moves the tail into the committed part and changes nothing else. -/
theorem contents_commit (l : Log α) : (l.apply .commit).contents = l.contents := by
  simp [contents, apply]

theorem committed_prefix_apply (l : Log α) (op : Op α) :
    l.committed <+: (l.apply op).committed := by
  cases op with
  | stage items => exact List.prefix_refl _
  | commit => exact List.prefix_append _ _

/-- A committed batch stays where it is, whatever follows. -/
theorem committed_prefix_applyAll (l : Log α) (ops : List (Op α)) :
    l.committed <+: (l.applyAll ops).committed := by
  induction ops generalizing l with
  | nil => exact List.prefix_refl _
  | cons op ops ih => exact (committed_prefix_apply l op).trans (ih (l.apply op))

/-- Every item of a committed batch satisfies `P` at the number of the batch,
every pending one at the number of the next. -/
structure Numbered (P : Nat → α → Prop) (l : Log α) : Prop where
  committed : ∀ (j : Nat) batch, l.committed[j]? = some batch → ∀ a ∈ batch, P j a
  pending : ∀ a ∈ l.pending, P l.committed.length a

namespace Numbered
variable {P : Nat → α → Prop} {l : Log α}

theorem stage (h : l.Numbered P) {items : List α} (hitems : ∀ a ∈ items, P l.committed.length a) :
    (l.apply (.stage items)).Numbered P := ⟨h.committed, hitems⟩

/-- The batch gets the number that its items satisfy `P` at. -/
theorem commit (h : l.Numbered P) : (l.apply .commit).Numbered P := by
  refine ⟨fun j batch hj => ?_, fun a ha => by cases ha⟩
  rcases Nat.lt_or_ge j l.committed.length with hlt | hge
  · rw [apply, List.getElem?_append_left hlt] at hj
    exact h.committed j batch hj
  · rw [apply, List.getElem?_append_right hge, List.getElem?_singleton] at hj
    split at hj
    · have hlast : j = l.committed.length := by omega
      cases hj
      rw [hlast]
      exact h.pending
    · cases hj

end Numbered

end Log
end UnichainBuilder.Lib.CommitLog

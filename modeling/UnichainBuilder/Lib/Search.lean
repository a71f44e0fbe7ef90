import Mathlib.Data.List.Infix

/-! # Searching a list

When two searches for a first element end in the same place, and when a list
contains a pattern that begins with a separator. -/
namespace UnichainBuilder.Lib.Search

universe u v
variable {α : Type u} {β : Type v}

/-! ## The first element -/

/-- Two searches agree up to `f` if the first element that either of them
accepts is accepted by both, or by coincidence. -/
theorem find?_agree_iff {P Q : α → Bool} {f : α → β} {xs : List α} :
    (xs.find? P).map f = (xs.find? Q).map f ↔
      ∀ x ∈ xs.find? (fun x => P x || Q x),
        (P x ∧ Q x) ∨ ∃ a ∈ xs.find? P, ∃ b ∈ xs.find? Q, f a = f b := by
  induction xs with
  | nil => simp
  | cons x xs ih =>
    cases hP : P x <;> cases hQ : Q x
    · simpa [List.find?_cons, hP, hQ] using ih
    · cases hfirst : xs.find? P <;> simp [hP, hQ, hfirst]
    · cases hfirst : xs.find? Q <;> simp [hP, hQ, hfirst]
    · simp [hP, hQ]

/-! ## Separators -/

variable [DecidableEq α] {sep : α} {p s : List α}

/-- A prefix without the separator ends in the first field. -/
theorem isPrefix_iff_splitOn (hp : sep ∉ p) :
    p <+: s ↔ ∃ field ∈ (s.splitOn sep).head?, p <+: field := by
  induction s generalizing p with
  | nil => simp
  | cons x s ih =>
    rw [List.splitOn_cons_eq_if_modifyHead]
    obtain ⟨first, rest, hsplit⟩ := List.exists_cons_of_ne_nil (List.splitOn_ne_nil sep s)
    cases p with
    | nil => by_cases hx : x = sep <;> simp [hx, hsplit]
    | cons y p =>
      rw [List.mem_cons, not_or] at hp
      obtain ⟨hy, hp⟩ := hp
      have hrest := ih hp
      by_cases hx : x = sep
      · simp [hx, List.cons_prefix_cons, Ne.symm hy]
      · simp_all [List.cons_prefix_cons]

/-- What follows a separator begins a field other than the first. -/
theorem cons_isInfix_iff_splitOn (hp : sep ∉ p) :
    sep :: p <:+: s ↔ ∃ field ∈ (s.splitOn sep).tail, p <+: field := by
  induction s with
  | nil => simp
  | cons x s ih =>
    rw [List.infix_cons_iff, List.cons_prefix_cons, ih, isPrefix_iff_splitOn hp,
      List.splitOn_cons_eq_if_modifyHead]
    obtain ⟨first, rest, hsplit⟩ := List.exists_cons_of_ne_nil (List.splitOn_ne_nil sep s)
    by_cases hx : x = sep
    · simp [hx, hsplit]
    · simp [hx, hsplit, Ne.symm hx]

end UnichainBuilder.Lib.Search

import Mathlib.Data.List.Chain
import Mathlib.Data.List.Induction
import UnichainBuilder.Lib.Runs

/-! # Lists read in the light of their past

What each entry of a list yields when it may look at the entries before it.
Two such readings agree as lists exactly when they agree at every entry,
provided that one never yields fewer samples than the other. -/
namespace UnichainBuilder.Lib.Past
open UnichainBuilder.Lib.Runs

universe u v
variable {ε : Type u} {β : Type v}

def flatMapPast (f : List ε → ε → List β) : List ε → List ε → List β
  | _, [] => []
  | past, e :: es => f past e ++ flatMapPast f (past ++ [e]) es

theorem flatMapPast_concat {f : List ε → ε → List β} {past es : List ε} {e : ε} :
    flatMapPast f past (es ++ [e]) = flatMapPast f past es ++ f (past ++ es) e := by
  induction es generalizing past with
  | nil => simp [flatMapPast]
  | cons e' es ih => simp [flatMapPast, ih, List.append_assoc]

theorem length_flatMapPast_le {f g : List ε → ε → List β}
    (hle : ∀ past e, (g past e).length ≤ (f past e).length) (past es : List ε) :
    (flatMapPast g past es).length ≤ (flatMapPast f past es).length := by
  induction es generalizing past with
  | nil => exact Nat.le_refl _
  | cons e es ih =>
    simp only [flatMapPast, List.length_append]
    exact Nat.add_le_add (hle past e) (ih _)

/-- Surplus samples anywhere make the whole sequence longer. -/
theorem flatMapPast_eq_iff {f g : List ε → ε → List β}
    (hle : ∀ past e, (g past e).length ≤ (f past e).length) {past es : List ε} :
    flatMapPast f past es = flatMapPast g past es ↔
      AtEvery (fun past e => f past e = g past e) past es := by
  induction es generalizing past with
  | nil => simp [flatMapPast, AtEvery]
  | cons e es ih =>
    simp only [flatMapPast, AtEvery]
    rw [← ih]
    constructor
    · intro h
      have hlen := congrArg List.length h
      simp only [List.length_append] at hlen
      have hhead := hle past e
      have htail := length_flatMapPast_le hle (past ++ [e]) es
      exact List.append_inj h (by omega)
    · rintro ⟨hhead, htail⟩
      rw [hhead, htail]

theorem flatMapPast_of_entry {f : ε → List β} (past es : List ε) :
    flatMapPast (fun _ e => f e) past es = es.flatMap f := by
  induction es generalizing past with
  | nil => rfl
  | cons e es ih => rw [flatMapPast, ih, List.flatMap_cons]

theorem forall_mem_flatMapPast {f : List ε → ε → List β} {P : β → Prop} {past es : List ε} :
    (∀ x ∈ flatMapPast f past es, P x) ↔
      AtEvery (fun past e => ∀ x ∈ f past e, P x) past es := by
  induction es generalizing past with
  | nil => simp [flatMapPast, AtEvery]
  | cons e es ih => simp only [flatMapPast, AtEvery, List.forall_mem_append, ih]

/-! ## Conditions at every entry -/

theorem atEvery_congr {P Q : List ε → ε → Prop} (h : ∀ past e, P past e ↔ Q past e)
    (past es : List ε) : AtEvery P past es ↔ AtEvery Q past es := by
  induction es generalizing past with
  | nil => exact Iff.rfl
  | cons e es ih => exact and_congr (h past e) (ih _)

theorem atEvery_and {P Q : List ε → ε → Prop} {past es : List ε} :
    AtEvery (fun past e => P past e ∧ Q past e) past es ↔
      AtEvery P past es ∧ AtEvery Q past es := by
  induction es generalizing past with
  | nil => simp [AtEvery]
  | cons e es ih => simp only [AtEvery, ih, and_assoc, and_left_comm]

theorem atEvery_entry {P : ε → Prop} (past es : List ε) :
    AtEvery (fun _ e => P e) past es ↔ ∀ e ∈ es, P e := by
  induction es generalizing past with
  | nil => simp [AtEvery]
  | cons e es ih => simp [AtEvery, ih (past ++ [e])]

theorem atEvery_pairwise {R : ε → ε → Prop} {es : List ε} :
    AtEvery (fun past e => ∀ x ∈ past, R x e) [] es ↔ es.Pairwise R := by
  induction es using List.reverseRecOn with
  | nil => simp [AtEvery]
  | append_singleton es e ih =>
    rw [atEvery_concat, ih, List.pairwise_append]
    simp

theorem atEvery_isChain {R : ε → ε → Prop} {es : List ε} :
    AtEvery (fun past e => ∀ x ∈ past.getLast?, R x e) [] es ↔ es.IsChain R := by
  induction es using List.reverseRecOn with
  | nil => simp [AtEvery]
  | append_singleton es e ih =>
    rw [atEvery_concat, ih, List.isChain_append]
    simp

end UnichainBuilder.Lib.Past

/-
Agreement of a list of items: a pass over the list that takes the key of the first complete item as
reference, and reports whether every item is complete and has that key.
-/
import Mathlib.Tactic

namespace SfDaqBuffer.Agreement

variable {α κ : Type*} (complete : α → Prop) [DecidablePred complete] (key : α → κ) [DecidableEq κ]

/-- The reference, once there is one, and what has been found so far. -/
structure Progress (κ : Type*) where
  reference : Option κ
  agree : Bool

def Progress.start : Progress κ := ⟨none, true⟩

/-- The pass at one item. -/
def visit (s : Progress κ) (a : α) : Progress κ :=
  if complete a then ⟨some (s.reference.getD (key a)), s.agree && key a == s.reference.getD (key a)⟩
  else { s with agree := false }

/-- All items are complete, and any two have the same key. -/
def Agreeing (l : List α) : Prop := ∀ a ∈ l, complete a ∧ ∀ b ∈ l, key b = key a

variable {complete key}

theorem visit_complete {a : α} (h : complete a) (s : Progress κ) :
    visit complete key s a =
      ⟨some (s.reference.getD (key a)), s.agree && key a == s.reference.getD (key a)⟩ := if_pos h

theorem visit_incomplete {a : α} (h : ¬ complete a) (s : Progress κ) :
    visit complete key s a = { s with agree := false } := if_neg h

/-- What was found to disagree stays so. -/
theorem agree_of_foldl : ∀ (l : List α) {s : Progress κ},
    (l.foldl (visit complete key) s).agree = true → s.agree = true
  | [], _, h => h
  | a :: l, s, h => by
    have hvisit := agree_of_foldl l h
    by_cases ha : complete a
    · rw [visit_complete ha] at hvisit
      exact (Bool.and_eq_true_iff.1 hvisit).1
    · rw [visit_incomplete ha] at hvisit
      cases hvisit

/-- With a reference, the pass compares every item with it. -/
theorem foldl_reference (k : κ) : ∀ (l : List α) {s : Progress κ}, s.reference = some k →
    ((l.foldl (visit complete key) s).agree = true ↔ s.agree = true ∧ ∀ a ∈ l, complete a ∧ key a = k)
  | [], s, _ => by simp
  | a :: l, s, hs => by
    rw [List.foldl_cons]
    by_cases ha : complete a
    · have hvisit : visit complete key s a = _ := visit_complete ha s
      rw [hs, Option.getD_some] at hvisit
      rw [hvisit, foldl_reference k l rfl]
      simp [ha, and_assoc]
    · rw [visit_incomplete ha]
      constructor
      · intro h
        have := agree_of_foldl l h
        cases this
      · rintro ⟨-, h⟩
        exact absurd (h a (List.mem_cons_self ..)).1 ha

/-- The pass finds out whether the items agree. -/
theorem foldl_agree (l : List α) : (l.foldl (visit complete key) .start).agree = true ↔ Agreeing complete key l := by
  cases l with
  | nil => exact iff_of_true rfl nofun
  | cons a l =>
    rw [List.foldl_cons]
    by_cases ha : complete a
    · rw [visit_complete ha, foldl_reference (key a) l rfl]
      constructor
      · rintro ⟨-, h⟩
        -- every item has the key of the first
        have hall : ∀ b ∈ a :: l, complete b ∧ key b = key a := by
          intro b hb
          rcases List.mem_cons.1 hb with rfl | hb
          · exact ⟨ha, rfl⟩
          · exact h b hb
        intro b hb
        exact ⟨(hall b hb).1, fun c hc => (hall c hc).2.trans (hall b hb).2.symm⟩
      · intro h
        refine ⟨by simp [Progress.start], fun b hb => ?_⟩
        have hb' := List.mem_cons_of_mem a hb
        exact ⟨(h b hb').1, (h a (List.mem_cons_self ..)).2 b hb'⟩
    · rw [visit_incomplete ha]
      constructor
      · intro h
        cases agree_of_foldl l h
      · intro h
        exact absurd (h a (List.mem_cons_self ..)).1 ha

/-- No reference is taken exactly when no item is complete. -/
theorem foldl_reference_isSome : ∀ (l : List α) (s : Progress κ),
    ((l.foldl (visit complete key) s).reference.isSome ↔ s.reference.isSome ∨ ∃ a ∈ l, complete a)
  | [], s => by simp
  | a :: l, s => by
    rw [List.foldl_cons, foldl_reference_isSome l]
    by_cases ha : complete a
    · simp [visit_complete ha, ha]
    · simp [visit_incomplete ha, ha]

end SfDaqBuffer.Agreement

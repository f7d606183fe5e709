/-
A filter that tests each element against the element before it, kept or not. What the test gives
between neighbours holds between all kept elements when it composes with an order of the whole
list.
-/
import Mathlib.Tactic

namespace SfDaqBuffer.Consecutive

variable {α : Type*}

/-- The elements that are not `bad` after their predecessor; `prev` precedes the list. -/
def kept (bad : α → α → Bool) : α → List α → List α
  | _, [] => []
  | prev, x :: xs => if bad prev x then kept bad x xs else x :: kept bad x xs

@[simp] theorem kept_nil (bad : α → α → Bool) (prev : α) : kept bad prev [] = [] := rfl

theorem kept_cons (bad : α → α → Bool) (prev x : α) (xs : List α) :
    kept bad prev (x :: xs) = if bad prev x then kept bad x xs else x :: kept bad x xs := rfl

theorem kept_map {β : Type*} (bad : β → β → Bool) (f : α → β) (prev : α) (xs : List α) :
    kept bad (f prev) (xs.map f) = (kept (fun a b => bad (f a) (f b)) prev xs).map f := by
  induction xs generalizing prev with
  | nil => rfl
  | cons x xs ih =>
    rw [List.map_cons, kept_cons, kept_cons, ih]
    split <;> rfl

/-- The kept elements are ordered by `S` when the list is ordered by a weaker `R` that `S` absorbs
and `bad` rules out the pairs of neighbours in `R` but not in `S`. -/
theorem kept_pairwise {bad : α → α → Bool} {R S : α → α → Prop}
    (hbad : ∀ a b, bad a b = false → R a b → S a b) (hR : ∀ a b c, R a b → S b c → S a c)
    (hS : ∀ a b c, S a b → S b c → S a c) :
    ∀ (prev : α) (xs : List α), (prev :: xs).Pairwise R → (prev :: kept bad prev xs).Pairwise S
  | prev, [], _ => List.pairwise_singleton ..
  | prev, x :: xs, h => by
    obtain ⟨hprev, hx⟩ := List.pairwise_cons.1 h
    have ih := kept_pairwise hbad hR hS x xs hx
    obtain ⟨hkept, htail⟩ := List.pairwise_cons.1 ih
    have hpx := hprev x (List.mem_cons_self ..)
    rw [kept_cons]
    split
    · exact List.pairwise_cons.2 ⟨fun y hy => hR _ _ _ hpx (hkept y hy), htail⟩
    · rename_i hb
      have hS' := hbad prev x (Bool.eq_false_iff.2 hb) hpx
      refine List.pairwise_cons.2 ⟨fun y hy => ?_, ih⟩
      rcases List.mem_cons.1 hy with rfl | hy
      · exact hS'
      · exact hS _ _ _ hS' (hkept y hy)

/-! ## A list without bad neighbours -/

theorem kept_of_chain {bad : α → α → Bool} : ∀ {prev : α} {xs : List α},
    (prev :: xs).IsChain (fun a b => bad a b = false) → kept bad prev xs = xs
  | _, [], _ => rfl
  | prev, x :: xs, h => by
    obtain ⟨hx, hxs⟩ := List.isChain_cons_cons.1 h
    rw [kept_cons, hx, kept_of_chain hxs]
    rfl

/-- Only the first element can be dropped. -/
theorem kept_or_tail {bad : α → α → Bool} (prev : α) {xs : List α}
    (h : xs.IsChain fun a b => bad a b = false) : kept bad prev xs = xs ∨ kept bad prev xs = xs.tail := by
  cases xs with
  | nil => exact .inl rfl
  | cons x xs =>
    rw [kept_cons, kept_of_chain h]
    split
    · exact .inr rfl
    · exact .inl rfl

end SfDaqBuffer.Consecutive

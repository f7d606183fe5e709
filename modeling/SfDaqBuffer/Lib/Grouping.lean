/-
Cutting a stream into groups. A group is closed before an element that does not belong with the
group's first element, and after an element that ends a group. The cut depends on the stream
alone, and a stream of groups is cut into these groups.
-/
import Mathlib.Tactic

namespace SfDaqBuffer.Grouping

variable {α : Type*} (apart : α → α → Bool) (ends : α → Bool)

/-- `x` does not belong to the open group `cur`. -/
def cuts (cur : List α) (x : α) : Bool := cur.head?.any (apart · x)

/-- One element: the groups it closes, and the open group after it. -/
def step (cur : List α) (x : α) : List (List α) × List α :=
  if cuts apart cur x then
    if ends x then ([cur, [x]], []) else ([cur], [x])
  else
    if ends x then ([cur ++ [x]], []) else ([], cur ++ [x])

/-- The groups closed while reading a stream with the open group `cur`. -/
def closed : List α → List α → List (List α)
  | _, [] => []
  | cur, x :: xs => (step apart ends cur x).1 ++ closed (step apart ends cur x).2 xs

/-- The group still open after the stream. -/
def pending : List α → List α → List α
  | cur, [] => cur
  | cur, x :: xs => pending (step apart ends cur x).2 xs

/-! ## One element at a time -/

variable {apart ends}

/-- An element that cuts closes the open group and is read again with none open. -/
theorem closed_of_cuts {cur : List α} {x : α} (h : cuts apart cur x = true) (xs : List α) :
    closed apart ends cur (x :: xs) = cur :: closed apart ends [] (x :: xs) := by
  have hnil : cuts apart [] x = false := rfl
  simp only [closed, step, h, hnil, if_true, Bool.false_eq_true, if_false]
  split <;> rfl

theorem closed_of_ends {cur : List α} {x : α} (h : cuts apart cur x = false) (he : ends x = true)
    (xs : List α) : closed apart ends cur (x :: xs) = (cur ++ [x]) :: closed apart ends [] xs := by
  rw [closed]
  unfold step
  rw [if_neg (by rw [h]; decide), if_pos he]
  rfl

theorem closed_of_more {cur : List α} {x : α} (h : cuts apart cur x = false) (he : ends x = false)
    (xs : List α) : closed apart ends cur (x :: xs) = closed apart ends (cur ++ [x]) xs := by
  rw [closed]
  unfold step
  rw [if_neg (by rw [h]; decide), if_neg (by rw [he]; decide)]
  rfl

/-! ## A stream of groups -/

/-- The list without its last element, unless `p` holds of that one. -/
def completed {β : Type*} (p : β → Bool) : List β → List β
  | [] => []
  | [x] => if p x then [x] else []
  | x :: y :: xs => x :: completed p (y :: xs)

theorem completed_map {β γ : Type*} (p : γ → Bool) (f : β → γ) :
    ∀ xs : List β, completed p (xs.map f) = (completed (p ∘ f) xs).map f
  | [] => rfl
  | [x] => by
    simp only [List.map_cons, List.map_nil, completed, Function.comp_apply]
    split <;> rfl
  | x :: y :: xs => congrArg (f x :: ·) (completed_map p f (y :: xs))

theorem completed_prefix {β : Type*} (p : β → Bool) : ∀ xs : List β, completed p xs <+: xs
  | [] => List.prefix_refl _
  | [x] => by
    unfold completed
    split
    · exact List.prefix_refl _
    · exact List.nil_prefix
  | x :: y :: xs => List.cons_prefix_cons.2 ⟨rfl, completed_prefix p (y :: xs)⟩

/-- Elements that belong together, of which only the last one may end the group. -/
structure IsGroup (apart : α → α → Bool) (ends : α → Bool) (g : List α) : Prop where
  ne_nil : g ≠ []
  together : ∀ a ∈ g, ∀ b ∈ g, apart a b = false
  ends_last : g.Pairwise fun x _ => ends x = false

theorem cuts_of_together {cur : List α} {x : α} (h : ∀ a ∈ cur, apart a x = false) :
    cuts apart cur x = false := by
  cases cur with
  | nil => rfl
  | cons a as => exact h a (List.mem_cons_self ..)

/-- Reading elements that belong with the open group and with each other. -/
theorem closed_of_together : ∀ (xs : List α) {cur : List α},
    (∀ a ∈ cur ++ xs, ∀ b ∈ cur ++ xs, apart a b = false) → xs.Pairwise (fun x _ => ends x = false) →
      ∀ ys, closed apart ends cur (xs ++ ys) =
        if xs.any ends then (cur ++ xs) :: closed apart ends [] ys else closed apart ends (cur ++ xs) ys
  | [], cur, _, _, ys => by simp
  | x :: xs, cur, htog, hpair, ys => by
    obtain ⟨hx, hxs⟩ := List.pairwise_cons.1 hpair
    have hcuts : cuts apart cur x = false :=
      cuts_of_together fun a ha => htog a (by simp [ha]) x (by simp)
    rw [List.cons_append, List.any_cons]
    cases he : ends x with
    | true =>
      -- nothing of the group comes after the element that ends it
      have hnil : xs = [] := by
        cases xs with
        | nil => rfl
        | cons y ys => rw [hx y (List.mem_cons_self ..)] at he; contradiction
      rw [closed_of_ends hcuts he, hnil]
      rfl
    | false =>
      rw [closed_of_more hcuts he, closed_of_together xs (by simpa using htog) hxs ys]
      simp

/-- A stream of groups, of which neighbours do not belong together, is cut into these groups. The
last one stays open when nothing ends it. -/
theorem closed_flatten : ∀ gs : List (List α), (∀ g ∈ gs, IsGroup apart ends g) →
    gs.IsChain (fun g h => ∀ a ∈ g, ∀ b ∈ h, apart a b = true) →
      closed apart ends [] gs.flatten = completed (·.any ends) gs
  | [], _, _ => rfl
  | [g], hgs, _ => by
    have hg := hgs g (List.mem_cons_self ..)
    rw [List.flatten_cons, closed_of_together g hg.together hg.ends_last]
    rfl
  | g :: h :: gs, hgs, hchain => by
    obtain ⟨hgh, hchain⟩ := List.isChain_cons_cons.1 hchain
    have hg := hgs g (List.mem_cons_self ..)
    have ih := closed_flatten (h :: gs) (fun g' hg' => hgs g' (List.mem_cons_of_mem _ hg')) hchain
    rw [List.flatten_cons, closed_of_together g hg.together hg.ends_last, completed, List.nil_append, ← ih]
    split
    · rfl
    · -- the first element of the next group cuts this one off
      obtain ⟨a, as, rfl⟩ := List.exists_cons_of_ne_nil hg.ne_nil
      obtain ⟨b, bs, rfl⟩ := List.exists_cons_of_ne_nil (hgs h (by simp)).ne_nil
      have hcuts : cuts apart (a :: as) b = true := hgh a (by simp) b (by simp)
      exact closed_of_cuts hcuts _

end SfDaqBuffer.Grouping

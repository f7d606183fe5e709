/-
Actions that change a state and may throw; what was changed before an exception stays changed.
`Keeps` is the rule for what an action preserves, whether it throws or not.
-/
import Mathlib.Tactic

namespace SfDaqBuffer

def Action (ε σ α : Type) : Type := σ → Except ε α × σ

namespace Action

variable {ε σ τ α β : Type}

def run (x : Action ε σ α) (s : σ) : Except ε α × σ := x s

instance : Monad (Action ε σ) where
  pure a s := (.ok a, s)
  bind x f s :=
    match x s with
    | (.ok a, s) => f a s
    | (.error e, s) => (.error e, s)

def throw (e : ε) : Action ε σ α := fun s => (.error e, s)

def get : Action ε σ σ := fun s => (.ok s, s)

def modify (f : σ → σ) : Action ε σ Unit := fun s => (.ok (), f s)

/-- What `f` finds in the state, and the state it leaves. -/
def act (f : σ → α × σ) : Action ε σ α := fun s => (.ok (f s).1, (f s).2)

def onlyIf (c : Prop) [Decidable c] (x : Action ε σ Unit) : Action ε σ Unit := if c then x else pure ()

/-- The result for a caller that does not catch exceptions. -/
def uncaught (x : Action ε σ α) (s : σ) : Except ε (α × σ) :=
  match x.run s with
  | (.ok a, s) => .ok (a, s)
  | (.error e, _) => .error e

/-- An action on a part of the state. -/
def onPart (get : σ → τ) (set : τ → σ → σ) (x : Action ε τ α) : Action ε σ α := fun s =>
  ((x.run (get s)).1, set (x.run (get s)).2 s)

/-! ## Runs -/

@[simp] theorem run_pure (a : α) (s : σ) : (pure a : Action ε σ α).run s = (.ok a, s) := rfl

theorem run_bind (x : Action ε σ α) (f : α → Action ε σ β) (s : σ) :
    (x >>= f).run s = match x.run s with
      | (.ok a, s) => (f a).run s
      | (.error e, s) => (.error e, s) := rfl

theorem run_bind_ok {x : Action ε σ α} {f : α → Action ε σ β} {s s' : σ} {a : α} (h : x.run s = (.ok a, s')) :
    (x >>= f).run s = (f a).run s' := by
  rw [run_bind, h]

theorem run_bind_error {x : Action ε σ α} {f : α → Action ε σ β} {s s' : σ} {e : ε} (h : x.run s = (.error e, s')) :
    (x >>= f).run s = (.error e, s') := by
  rw [run_bind, h]

@[simp] theorem run_throw (e : ε) (s : σ) : (throw e : Action ε σ α).run s = (.error e, s) := rfl

@[simp] theorem run_get (s : σ) : (get : Action ε σ σ).run s = (.ok s, s) := rfl

@[simp] theorem run_modify (f : σ → σ) (s : σ) : (modify f : Action ε σ Unit).run s = (.ok (), f s) := rfl

@[simp] theorem run_act (f : σ → α × σ) (s : σ) : (act f : Action ε σ α).run s = (.ok (f s).1, (f s).2) := rfl

theorem uncaught_ok {x : Action ε σ α} {s s' : σ} {a : α} (h : x.run s = (.ok a, s')) : x.uncaught s = .ok (a, s') := by
  unfold uncaught
  rw [h]

theorem onlyIf_true {c : Prop} [Decidable c] (h : c) (x : Action ε σ Unit) : onlyIf c x = x := if_pos h

theorem onlyIf_false {c : Prop} [Decidable c] (h : ¬ c) (x : Action ε σ Unit) : onlyIf c x = pure () := if_neg h

theorem run_onPart (get : σ → τ) (set : τ → σ → σ) (x : Action ε τ α) (s : σ) :
    (onPart get set x).run s = ((x.run (get s)).1, set (x.run (get s)).2 s) := rfl

/-! ## Preserved properties -/

/-- The action preserves `I`, also when it throws. -/
def Keeps (I : σ → Prop) (x : Action ε σ α) : Prop := ∀ s, I s → I (x.run s).2

variable {I : σ → Prop}

theorem Keeps.pure (a : α) : Keeps I (Pure.pure a : Action ε σ α) := fun _ h => h

theorem Keeps.bind {x : Action ε σ α} {f : α → Action ε σ β} (hx : Keeps I x) (hf : ∀ a, Keeps I (f a)) :
    Keeps I (x >>= f) := by
  intro s hs
  have hx' := hx s hs
  rcases hrun : x.run s with ⟨e | a, s'⟩
  · rw [hrun] at hx'
    rw [run_bind_error hrun]
    exact hx'
  · rw [hrun] at hx'
    rw [run_bind_ok hrun]
    exact hf a s' hx'

theorem Keeps.onlyIf {c : Prop} [Decidable c] {x : Action ε σ Unit} (h : c → Keeps I x) :
    Keeps I (Action.onlyIf c x) := by
  by_cases hc : c
  · rw [onlyIf_true hc]
    exact h hc
  · rw [onlyIf_false hc]
    exact .pure ()

/-! ## Exceptions -/

/-- Every exception of the action is `P`. -/
def Throws (P : ε → Prop) (x : Action ε σ α) : Prop := ∀ s e, (x.run s).1 = .error e → P e

variable {P : ε → Prop}

theorem Throws.pure (a : α) : Throws P (Pure.pure a : Action ε σ α) := by
  intro s e h
  cases h

theorem Throws.act (f : σ → α × σ) : Throws P (Action.act f : Action ε σ α) := by
  intro s e h
  cases h

theorem Throws.modify (f : σ → σ) : Throws P (Action.modify f : Action ε σ Unit) := by
  intro s e h
  cases h

theorem Throws.throw {e : ε} (h : P e) : Throws P (Action.throw e : Action ε σ α) := by
  intro s e' h'
  cases h'
  exact h

theorem Throws.bind {x : Action ε σ α} {f : α → Action ε σ β} (hx : Throws P x) (hf : ∀ a, Throws P (f a)) :
    Throws P (x >>= f) := by
  intro s e h
  rcases hrun : x.run s with ⟨e' | a, s'⟩
  · rw [run_bind_error hrun] at h
    cases h
    exact hx s e (by rw [hrun])
  · rw [run_bind_ok hrun] at h
    exact hf a s' e h

theorem Throws.onlyIf {c : Prop} [Decidable c] {x : Action ε σ Unit} (h : c → Throws P x) :
    Throws P (Action.onlyIf c x) := by
  by_cases hc : c
  · rw [onlyIf_true hc]
    exact h hc
  · rw [onlyIf_false hc]
    exact .pure ()

theorem Throws.onPart {get : σ → τ} {set : τ → σ → σ} {x : Action ε τ α} (h : Throws P x) :
    Throws P (Action.onPart get set x) := fun s e hrun => h (get s) e hrun

/-! ## Triples -/

/-- From a state with `pre` the action returns in a state with `post`, or throws in one with `fail`. -/
def Triple (pre : σ → Prop) (x : Action ε σ α) (post : α → σ → Prop) (fail : σ → Prop) : Prop :=
  ∀ s, pre s → match x.run s with
    | (.ok a, s') => post a s'
    | (.error _, s') => fail s'

namespace Triple

variable {pre fail : σ → Prop} {post : α → σ → Prop}

theorem ok {x : Action ε σ α} (h : Triple pre x post fail) {s s' : σ} {a : α} (hpre : pre s)
    (hrun : x.run s = (.ok a, s')) : post a s' := by
  have hpost := h s hpre
  rwa [hrun] at hpost

theorem imp {post' : α → σ → Prop} {x : Action ε σ α} (h : Triple pre x post fail)
    (himp : ∀ a s, post a s → post' a s) : Triple pre x post' fail := by
  intro s hpre
  have hpost := h s hpre
  rcases hrun : x.run s with ⟨e | a, s'⟩
  · rwa [hrun] at hpost
  · rw [hrun] at hpost
    exact himp a s' hpost

/-- Where returning and throwing give the same, so does the state after the action. -/
theorem keeps {x : Action ε σ α} (h : Triple pre x (fun _ => fail) fail) {s : σ} (hpre : pre s) :
    fail (x.run s).2 := by
  have hpost := h s hpre
  rcases hrun : x.run s with ⟨e | a, s'⟩
  · rwa [hrun] at hpost
  · rwa [hrun] at hpost

theorem pure {a : α} (h : ∀ s, pre s → post a s) : Triple pre (Pure.pure a : Action ε σ α) post fail := h

theorem act {f : σ → α × σ} (h : ∀ s, pre s → post (f s).1 (f s).2) :
    Triple pre (Action.act f : Action ε σ α) post fail := h

theorem modify {f : σ → σ} {post : Unit → σ → Prop} (h : ∀ s, pre s → post () (f s)) :
    Triple pre (Action.modify f : Action ε σ Unit) post fail := h

theorem throw {e : ε} (h : ∀ s, pre s → fail s) : Triple pre (Action.throw e : Action ε σ α) post fail := h

theorem bind {R : α → σ → Prop} {post : β → σ → Prop} {x : Action ε σ α} {f : α → Action ε σ β}
    (hx : Triple pre x R fail) (hf : ∀ a, Triple (R a) (f a) post fail) : Triple pre (x >>= f) post fail := by
  intro s hpre
  have hmiddle := hx s hpre
  rcases hrun : x.run s with ⟨e | a, s'⟩
  · rw [hrun] at hmiddle
    rw [run_bind_error hrun]
    exact hmiddle
  · rw [hrun] at hmiddle
    rw [run_bind_ok hrun]
    exact hf a s' hmiddle

theorem onlyIf {c : Prop} [Decidable c] {x : Action ε σ Unit} {post : Unit → σ → Prop} (h : c → Triple pre x post fail)
    (hnot : ¬ c → ∀ s, pre s → post () s) : Triple pre (Action.onlyIf c x) post fail := by
  by_cases hc : c
  · rw [onlyIf_true hc]
    exact h hc
  · rw [onlyIf_false hc]
    exact .pure (hnot hc)

end Triple

end Action

end SfDaqBuffer

/-
Runs of a system of threads: each step is an action that a state may allow, and an invariant that
the initial states have and every step keeps holds in every reachable state.
-/
import Mathlib.Tactic

namespace SfDaqBuffer.Runs

variable {State Action : Type*}

/-- The states that a run of `step` from an initial state passes through. -/
inductive Reachable (init : State → Prop) (step : Action → State → Option State) : State → Prop
  | init {s} : init s → Reachable init step s
  | step {s a s'} : Reachable init step s → step a s = some s' → Reachable init step s'

variable {init : State → Prop} {step : Action → State → Option State}

theorem Reachable.invariant {I : State → Prop} (hinit : ∀ s, init s → I s)
    (hstep : ∀ s a s', I s → step a s = some s' → I s') {s : State} (h : Reachable init step s) : I s := by
  induction h with
  | init h => exact hinit _ h
  | step _ hs ih => exact hstep _ _ _ ih hs

/-- The states of the runs whose steps all meet `ok`, a condition on the state before the step. -/
inductive ReachableUnder (ok : Action → State → Prop) (init : State → Prop) (step : Action → State → Option State) :
    State → Prop
  | init {s} : init s → ReachableUnder ok init step s
  | step {s a s'} : ReachableUnder ok init step s → ok a s → step a s = some s' → ReachableUnder ok init step s'

theorem ReachableUnder.invariant {ok : Action → State → Prop} {I : State → Prop} (hinit : ∀ s, init s → I s)
    (hstep : ∀ s a s', I s → ok a s → step a s = some s' → I s') {s : State} (h : ReachableUnder ok init step s) :
    I s := by
  induction h with
  | init h => exact hinit _ h
  | step _ hok hs ih => exact hstep _ _ _ ih hok hs

/-- The state after a list of actions, each of which must be allowed. -/
def run (step : Action → State → Option State) (actions : List Action) (s : State) : Option State :=
  actions.foldlM (fun s a => step a s) s

theorem Reachable.run : ∀ {actions : List Action} {s s' : State}, Reachable init step s →
    run step actions s = some s' → Reachable init step s'
  | [], _, _, h, hrun => Option.some.inj hrun ▸ h
  | a :: actions, s, s', h, hrun => by
    unfold Runs.run at hrun
    rw [List.foldlM_cons] at hrun
    obtain ⟨s₁, hs₁, hrest⟩ := Option.bind_eq_some_iff.1 hrun
    exact Reachable.run (h.step hs₁) hrest

/-- Actions that meet `ok` in every state may be added to a run. -/
theorem ReachableUnder.run {ok : Action → State → Prop} : ∀ {actions : List Action} {s s' : State},
    ReachableUnder ok init step s → (∀ a ∈ actions, ∀ s, ok a s) → Runs.run step actions s = some s' →
      ReachableUnder ok init step s'
  | [], _, _, h, _, hrun => Option.some.inj hrun ▸ h
  | a :: actions, s, s', h, hok, hrun => by
    unfold Runs.run at hrun
    rw [List.foldlM_cons] at hrun
    obtain ⟨s₁, hs₁, hrest⟩ := Option.bind_eq_some_iff.1 hrun
    exact ReachableUnder.run (h.step (hok a (List.mem_cons_self ..) s) hs₁)
      (fun b hb => hok b (List.mem_cons_of_mem _ hb)) hrest

/-- What no step changes, a fold of steps does not change. -/
theorem foldl_frame {β : Type*} (f : State → β) {next : State → Action → State}
    (h : ∀ s a, f (next s a) = f s) : ∀ (actions : List Action) (s : State), f (actions.foldl next s) = f s
  | [], _ => rfl
  | a :: actions, s => by rw [List.foldl_cons, foldl_frame f h actions, h]

/-- A fold whose steps each set their own entry: entry `k` has its value once `k` was a step. -/
theorem foldl_set {β : Type*} [DecidableEq Action] (f : State → β) {v : β} {k : Action}
    {next : State → Action → State} {P : State → Prop} : ∀ {actions : List Action} {s : State},
    (∀ s, P s → ∀ a ∈ actions, P (next s a) ∧ f (next s a) = if k = a then v else f s) → P s →
      f (actions.foldl next s) = if k ∈ actions then v else f s
  | [], s, _, _ => by simp
  | a :: actions, s, h, hs => by
    obtain ⟨hP, hget⟩ := h s hs a (List.mem_cons_self ..)
    rw [List.foldl_cons, foldl_set f (fun s hs b hb => h s hs b (List.mem_cons_of_mem _ hb)) hP, hget]
    by_cases hmem : k ∈ actions
    · rw [if_pos hmem, if_pos (List.mem_cons_of_mem _ hmem)]
    · rw [if_neg hmem]
      by_cases ha : k = a
      · rw [if_pos ha, if_pos (ha ▸ List.mem_cons_self ..)]
      · rw [if_neg ha, if_neg (by simp [ha, hmem])]

end SfDaqBuffer.Runs

/-
Runs with what an observer sees of them: each step adds the events that `observe` says for the action
and the state before it. An invariant may relate the state to the events so far.
-/
import SfDaqBuffer.Lib.Runs

namespace SfDaqBuffer.Runs

variable {State Action Event : Type*}

/-- A run whose steps all meet `ok`, with its events. -/
inductive Trace (ok : Action → State → Prop) (init : State → Prop) (step : Action → State → Option State)
    (observe : Action → State → List Event) : State → List Event → Prop
  | init {s} : init s → Trace ok init step observe s []
  | step {s es a s'} : Trace ok init step observe s es → ok a s → step a s = some s' →
      Trace ok init step observe s' (es ++ observe a s)

/-- The state and the events after a list of actions, if they all meet `ok`. -/
def runObserved (ok : Action → State → Prop) [∀ a s, Decidable (ok a s)] (step : Action → State → Option State)
    (observe : Action → State → List Event) : List Action → State → Option (State × List Event)
  | [], s => some (s, [])
  | a :: actions, s =>
    if ok a s then
      (step a s).bind fun s' =>
        (runObserved ok step observe actions s').map fun out => (out.1, observe a s ++ out.2)
    else none

variable {ok : Action → State → Prop} {init : State → Prop} {step : Action → State → Option State}
  {observe : Action → State → List Event} {s s' : State} {es : List Event}

theorem Trace.invariant {I : State → List Event → Prop} (hinit : ∀ s, init s → I s [])
    (hstep : ∀ s es a s', I s es → ok a s → step a s = some s' → I s' (es ++ observe a s))
    (h : Trace ok init step observe s es) : I s es := by
  induction h with
  | init h => exact hinit _ h
  | step _ hok hs ih => exact hstep _ _ _ _ ih hok hs

/-- Its states are those of the runs without events. -/
theorem Trace.reachable (h : Trace ok init step observe s es) : Reachable init step s := by
  induction h with
  | init h => exact .init h
  | step _ _ hs ih => exact ih.step hs

/-- The steps of a trace need not meet `ok` for a weaker condition. -/
theorem Trace.mono {ok' : Action → State → Prop} (hok : ∀ a s, ok a s → ok' a s)
    (h : Trace ok init step observe s es) : Trace ok' init step observe s es := by
  induction h with
  | init h => exact .init h
  | step _ ha hs ih => exact ih.step (hok _ _ ha) hs

/-- The part of a trace that concerns a component: each step is one of the component, with the events that it
shows of itself, or leaves the component alone. -/
theorem Trace.project {State' Action' Event' : Type*} {ok' : Action' → State' → Prop} {init' : State' → Prop}
    {step' : Action' → State' → Option State'} {observe' : Action' → State' → List Event'} {f : State → State'}
    {e : Event → Option Event'} (hinit : ∀ s, init s → init' (f s))
    (hstep : ∀ a s s', ok a s → step a s = some s' → (f s' = f s ∧ (observe a s).filterMap e = []) ∨
      ∃ a', ok' a' (f s) ∧ step' a' (f s) = some (f s') ∧ (observe a s).filterMap e = observe' a' (f s))
    (h : Trace ok init step observe s es) : Trace ok' init' step' observe' (f s) (es.filterMap e) := by
  induction h with
  | init h => exact .init (hinit _ h)
  | step _ hok hs ih =>
    rw [List.filterMap_append]
    rcases hstep _ _ _ hok hs with ⟨hsame, hquiet⟩ | ⟨a', hok', hs', hevents⟩
    · rw [hquiet, List.append_nil, hsame]
      exact ih
    · rw [hevents]
      exact ih.step hok' hs'

/-- A trace goes on with a list of actions. -/
theorem Trace.run [∀ a s, Decidable (ok a s)] : ∀ {actions : List Action} {s s' : State} {es es' : List Event},
    Trace ok init step observe s es → runObserved ok step observe actions s = some (s', es') →
      Trace ok init step observe s' (es ++ es')
  | [], s, s', es, es', h, hrun => by
    cases hrun
    rw [List.append_nil]
    exact h
  | a :: actions, s, s', es, es', h, hrun => by
    unfold runObserved at hrun
    split at hrun
    · rename_i hok
      obtain ⟨s₁, hs₁, hrest⟩ := Option.bind_eq_some_iff.1 hrun
      obtain ⟨⟨s₂, es₂⟩, hs₂, hlast⟩ := Option.map_eq_some_iff.1 hrest
      cases hlast
      have hnext := h.step hok hs₁
      rw [← List.append_assoc]
      exact Trace.run hnext hs₂
    · cases hrun

end SfDaqBuffer.Runs

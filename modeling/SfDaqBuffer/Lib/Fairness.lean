/-
Fair schedules: every thread gets its turn again and again. A rule for termination: while the work is not
done some thread helps, its own steps lower a measure or bring it closer to doing so, and no step of
another thread takes that back.
-/
import SfDaqBuffer.Lib.Traces

namespace SfDaqBuffer.Fairness

variable {State Action : Type*}

/-! ## Schedules -/

/-- The states that a schedule leads through. An action that is not allowed leaves the state as it is. -/
def states (step : Action → State → Option State) (schedule : Nat → Action) (s : State) : Nat → State
  | 0 => s
  | n + 1 => (step (schedule n) (states step schedule s n)).getD (states step schedule s n)

/-- Each of the threads is scheduled again and again. -/
def Fair (threads : Set Action) (schedule : Nat → Action) : Prop := ∀ t ∈ threads, ∀ n, ∃ k, schedule (n + k) = t

section

variable {step : Action → State → Option State} {schedule : Nat → Action} {s : State}

theorem states_succ_some {n : Nat} {s' : State} (h : step (schedule n) (states step schedule s n) = some s') :
    states step schedule s (n + 1) = s' := by
  unfold states
  rw [h]
  rfl

theorem states_succ_none {n : Nat} (h : step (schedule n) (states step schedule s n) = none) :
    states step schedule s (n + 1) = states step schedule s n := by
  show (step (schedule n) (states step schedule s n)).getD _ = _
  rw [h]
  rfl

/-- What every step keeps holds along a schedule. -/
theorem states_invariant {I : State → Prop} (hstep : ∀ s a s', I s → step a s = some s' → I s') (hs : I s) :
    ∀ n, I (states step schedule s n)
  | 0 => hs
  | n + 1 => by
    have ih := states_invariant hstep hs n
    cases h : step (schedule n) (states step schedule s n) with
    | some s' =>
      rw [states_succ_some h]
      exact hstep _ _ _ ih h
    | none =>
      rw [states_succ_none h]
      exact ih

/-- The states of a schedule are reachable. -/
theorem states_reachable {init : State → Prop} (hs : Runs.Reachable init step s) (n : Nat) :
    Runs.Reachable init step (states step schedule s n) :=
  states_invariant (fun _ _ _ h hstep => h.step hstep) hs n

end

/-! ## Termination -/

/-- While the states that meet `I` are not done, a thread helps: it can move, and its step lowers the
measure, or its rank; other steps lower the measure, or leave it helping and raise neither. -/
structure Helps (step : Action → State → Option State) (threads : Set Action) (I done : State → Prop)
    (measure : State → Nat) (rank : Action → State → Nat) (helps : Action → State → Prop) : Prop where
  keep : ∀ s a s', I s → step a s = some s' → I s'
  some_helps : ∀ s, I s → ¬ done s → ∃ t ∈ threads, helps t s
  moves : ∀ t s, I s → ¬ done s → helps t s → ∃ s', step t s = some s' ∧
    (measure s' < measure s ∨ measure s' ≤ measure s ∧ helps t s' ∧ rank t s' < rank t s)
  others : ∀ t a s s', I s → ¬ done s → helps t s → a ≠ t → step a s = some s' →
    measure s' < measure s ∨ measure s' ≤ measure s ∧ helps t s' ∧ rank t s' ≤ rank t s

section

variable {step : Action → State → Option State} {threads : Set Action} {I done : State → Prop}
  {measure : State → Nat} {rank : Action → State → Nat} {helps : Action → State → Prop}

/-- From a state where `t` helps and gets its turn in `k` steps: the work is done, or the measure is
lower, or the rank of `t` is. -/
theorem Helps.untilTurn (h : Helps step threads I done measure rank helps) {schedule : Nat → Action} {s : State}
    (hs : I s) {t : Action} : ∀ (k n : Nat), schedule (n + k) = t → helps t (states step schedule s n) →
      ∃ m, n < m ∧ (done (states step schedule s n) ∨ done (states step schedule s m) ∨
        measure (states step schedule s m) < measure (states step schedule s n) ∨
        measure (states step schedule s m) ≤ measure (states step schedule s n) ∧
          helps t (states step schedule s m) ∧ rank t (states step schedule s m) < rank t (states step schedule s n))
  | k, n, hturn, hhelps => by
    have hI : I (states step schedule s n) := states_invariant h.keep hs n
    by_cases hdone : done (states step schedule s n)
    · exact ⟨n + 1, Nat.lt_succ_self n, .inl hdone⟩
    by_cases hnow : schedule n = t
    · -- the turn of `t`
      obtain ⟨s', hstep, hmove⟩ := h.moves t _ hI hdone hhelps
      rw [← hnow] at hstep
      refine ⟨n + 1, Nat.lt_succ_self n, .inr (.inr ?_)⟩
      rw [states_succ_some hstep]
      exact hmove
    · cases k with
      | zero => exact absurd hturn hnow
      | succ k =>
        have hturn' : schedule (n + 1 + k) = t := by
          rw [← hturn]
          congr 1
          omega
        cases hstep : step (schedule n) (states step schedule s n) with
        | none =>
          have hsame := states_succ_none hstep
          obtain ⟨m, hm, hcases⟩ := Helps.untilTurn h hs k (n + 1) hturn' (by rw [hsame]; exact hhelps)
          rw [hsame] at hcases
          exact ⟨m, Nat.lt_of_succ_lt hm, hcases⟩
        | some s' =>
          have hnext := states_succ_some hstep
          rcases h.others t _ _ _ hI hdone hhelps hnow hstep with hlt | ⟨hle, hhelps', hrank⟩
          · exact ⟨n + 1, Nat.lt_succ_self n, .inr (.inr (.inl (by rw [hnext]; exact hlt)))⟩
          · obtain ⟨m, hm, hcases⟩ := Helps.untilTurn h hs k (n + 1) hturn' (by rw [hnext]; exact hhelps')
            rw [hnext] at hcases
            rcases hcases with hd | hd | hlt | ⟨hle', hhelps'', hrank'⟩
            · exact ⟨n + 1, Nat.lt_succ_self n, .inr (.inl (by rw [hnext]; exact hd))⟩
            · exact ⟨m, Nat.lt_of_succ_lt hm, .inr (.inl hd)⟩
            · exact ⟨m, Nat.lt_of_succ_lt hm, .inr (.inr (.inl (hlt.trans_le hle)))⟩
            · exact ⟨m, Nat.lt_of_succ_lt hm, .inr (.inr (.inr ⟨hle'.trans hle, hhelps'', hrank'.trans_le hrank⟩))⟩

/-- A thread that helps lowers the measure after finitely many of its turns. -/
theorem Helps.lowers (h : Helps step threads I done measure rank helps) {schedule : Nat → Action}
    (hfair : Fair threads schedule) {s : State} (hs : I s) {t : Action} (ht : t ∈ threads) :
    ∀ (r n : Nat), helps t (states step schedule s n) → rank t (states step schedule s n) = r →
      ∃ m, done (states step schedule s m) ∨ measure (states step schedule s m) < measure (states step schedule s n) := by
  intro r
  induction r using Nat.strong_induction_on with
  | _ r ih =>
    intro n hhelps hr
    obtain ⟨k, hturn⟩ := hfair t ht n
    obtain ⟨m, -, hd | hd | hlt | ⟨hle, hhelps', hrank⟩⟩ := h.untilTurn hs k n hturn hhelps
    · exact ⟨n, .inl hd⟩
    · exact ⟨m, .inl hd⟩
    · exact ⟨m, .inr hlt⟩
    · obtain ⟨m', hd | hlt⟩ := ih _ (hr ▸ hrank) m hhelps' rfl
      · exact ⟨m', .inl hd⟩
      · exact ⟨m', .inr (hlt.trans_le hle)⟩

/-- Under a fair schedule the work is done. -/
theorem Helps.eventually (h : Helps step threads I done measure rank helps) {schedule : Nat → Action}
    (hfair : Fair threads schedule) {s : State} (hs : I s) : ∃ n, done (states step schedule s n) := by
  have hfrom : ∀ (μ n : Nat), measure (states step schedule s n) = μ → ∃ m, done (states step schedule s m) := by
    intro μ
    induction μ using Nat.strong_induction_on with
    | _ μ ih =>
      intro n hμ
      by_cases hdone : done (states step schedule s n)
      · exact ⟨n, hdone⟩
      · obtain ⟨t, ht, hhelps⟩ := h.some_helps _ (states_invariant h.keep hs n) hdone
        obtain ⟨m, hd | hlt⟩ := h.lowers hfair hs ht _ n hhelps rfl
        · exact ⟨m, hd⟩
        · exact ih _ (hμ ▸ hlt) m rfl
  exact hfrom _ 0 rfl

end

/-! ## Coming to rest -/

/-- Every step of a thread lowers the measure. Other actions do so too, or leave the state as it is. -/
structure Consumes (step : Action → State → Option State) (threads : Set Action) (I : State → Prop)
    (measure : State → Nat) : Prop where
  keep : ∀ s a s', I s → step a s = some s' → I s'
  lower : ∀ t ∈ threads, ∀ s s', I s → step t s = some s' → measure s' < measure s
  others : ∀ a s s', I s → step a s = some s' → s' = s ∨ measure s' < measure s

/-- No thread can move. -/
def Stuck (step : Action → State → Option State) (threads : Set Action) (s : State) : Prop :=
  ∀ t ∈ threads, step t s = none

section

variable {step : Action → State → Option State} {threads : Set Action} {I : State → Prop} {measure : State → Nat}

theorem Consumes.helps (h : Consumes step threads I measure) :
    Helps step threads I (Stuck step threads) measure (fun _ _ => 0) fun t s => t ∈ threads ∧ (step t s).isSome where
  keep := h.keep
  some_helps s _ hmoves := by
    unfold Stuck at hmoves
    push Not at hmoves
    obtain ⟨t, ht, hstep⟩ := hmoves
    exact ⟨t, ht, ht, Option.isSome_iff_ne_none.2 hstep⟩
  moves t s hI _ := by
    rintro ⟨ht, hsome⟩
    obtain ⟨s', hstep⟩ := Option.isSome_iff_exists.1 hsome
    exact ⟨s', hstep, .inl (h.lower t ht s s' hI hstep)⟩
  others t a s s' hI _ hhelps _ hstep := by
    rcases h.others a s s' hI hstep with rfl | hlt
    · exact .inr ⟨le_rfl, hhelps, le_rfl⟩
    · exact .inl hlt

/-- Under a fair schedule a system that consumes something comes to rest. -/
theorem Consumes.rests (h : Consumes step threads I measure) {schedule : Nat → Action}
    (hfair : Fair threads schedule) {s : State} (hs : I s) : ∃ n, Stuck step threads (states step schedule s n) :=
  h.helps.eventually hfair hs

end

/-! ## What can be seen along a schedule -/

variable {Event : Type*}

/-- The events of the first steps of a schedule. -/
def observed (step : Action → State → Option State) (observe : Action → State → List Event) (schedule : Nat → Action)
    (s : State) : Nat → List Event
  | 0 => []
  | n + 1 => observed step observe schedule s n ++
    match step (schedule n) (states step schedule s n) with
    | some _ => observe (schedule n) (states step schedule s n)
    | none => []

theorem observed_succ_none {step : Action → State → Option State} (observe : Action → State → List Event)
    {schedule : Nat → Action} {s : State} {n : Nat} (h : step (schedule n) (states step schedule s n) = none) :
    observed step observe schedule s (n + 1) = observed step observe schedule s n := by
  show observed step observe schedule s n ++ _ = _
  rw [h]
  exact List.append_nil _

/-- A schedule whose steps all meet `ok` leads along a run. -/
theorem trace_states {ok : Action → State → Prop} {step : Action → State → Option State}
    (observe : Action → State → List Event) {schedule : Nat → Action} {s : State}
    (hok : ∀ n, ok (schedule n) (states step schedule s n)) : ∀ n, Runs.Trace ok (· = s) step observe
      (states step schedule s n) (observed step observe schedule s n)
  | 0 => .init rfl
  | n + 1 => by
    have ih := trace_states observe hok n
    unfold observed
    cases hstep : step (schedule n) (states step schedule s n) with
    | some s' =>
      rw [states_succ_some hstep]
      exact ih.step (hok n) hstep
    | none =>
      rw [states_succ_none hstep]
      simpa using ih

/-- A state that no scheduled action changes is the last one. -/
theorem states_stays {step : Action → State → Option State} (observe : Action → State → List Event)
    {schedule : Nat → Action} {s : State} {n : Nat}
    (h : ∀ k, step (schedule (n + k)) (states step schedule s n) = none) : ∀ k,
      states step schedule s (n + k) = states step schedule s n ∧
        observed step observe schedule s (n + k) = observed step observe schedule s n
  | 0 => ⟨rfl, rfl⟩
  | k + 1 => by
    obtain ⟨hsame, hevents⟩ := states_stays observe h k
    have hnone : step (schedule (n + k)) (states step schedule s (n + k)) = none := by rw [hsame]; exact h k
    exact ⟨(states_succ_none hnone).trans hsame, (observed_succ_none observe hnone).trans hevents⟩

/-! ## Round robin -/

/-- The actions of a list in turn. -/
def roundRobin (actions : List Action) (default : Action) (n : Nat) : Action :=
  actions.getD (n % actions.length) default

theorem roundRobin_mem {actions : List Action} (hne : actions ≠ []) (default : Action) (n : Nat) :
    roundRobin actions default n ∈ actions := by
  unfold roundRobin
  have hlt := Nat.mod_lt n (List.length_pos_iff.2 hne)
  rw [List.getD_eq_getElem?_getD, List.getElem?_eq_getElem hlt]
  exact List.getElem_mem hlt

theorem fair_roundRobin (actions : List Action) (default : Action) :
    Fair {t | t ∈ actions} (roundRobin actions default) := by
  intro t ht n
  obtain ⟨i, hi, rfl⟩ := List.getElem_of_mem ht
  have hpos : 0 < actions.length := by omega
  have hlt := Nat.mod_lt n hpos
  refine ⟨actions.length - n % actions.length + i, ?_⟩
  have hmod : (n + (actions.length - n % actions.length + i)) % actions.length = i := by
    have hsum : n + (actions.length - n % actions.length + i) =
        i + actions.length * (n / actions.length + 1) := by
      have hdiv := Nat.div_add_mod n actions.length
      rw [Nat.mul_add, Nat.mul_one]
      omega
    rw [hsum, Nat.add_mul_mod_self_left, Nat.mod_eq_of_lt hi]
  unfold roundRobin
  rw [hmod]
  simp [hi]

end SfDaqBuffer.Fairness

/-
Messages that come later. A call of `get_next_pulse_id` does what it did with fewer messages until it has to
wait, and it still waits for a module without new ones. So when it waits, no pulse_id is common to all
messages that have been sent, received or not.
-/
import SfDaqBuffer.Assembler.Intersection

namespace SfDaqBuffer.Assembler

open Streams

/-- The sockets from socket `i` on, with the messages `more` at their ends. -/
def socketsWith (more : Nat → List UInt64) : Nat → List (List UInt64) → List (List UInt64)
  | _, [] => []
  | i, s :: ss => (s ++ more i) :: socketsWith more (i + 1) ss

/-- The modules from module `i` on, with the messages `more` behind their unread ones. -/
def modulesWith (more : Nat → List UInt64) : Nat → List Module → List Module
  | _, [] => []
  | i, m :: ms => ⟨m.pulse, m.unread ++ more i⟩ :: modulesWith more (i + 1) ms

/-- `out'` is `out` with more messages, unless `out` waits for a module that has some. -/
def SameWith {α : Type} (f : α → α) (more : Nat → List UInt64) (out out' : Except Stop α) : Prop :=
  match out with
  | .ok a => out' = .ok (f a)
  | .error (.blocked j) => more j = [] → out' = .error (.blocked j)
  | .error (.threw what) => out' = .error (.threw what)

section

variable {α β : Type} {more : Nat → List UInt64}

theorem SameWith.bind {f : α → α} {f' : β → β} {x x' : Except Stop α} {k k' : α → Except Stop β}
    (h : SameWith f more x x') (hk : ∀ a, SameWith f' more (k a) (k' (f a))) : SameWith f' more (x >>= k) (x' >>= k') := by
  cases x with
  | ok a =>
    obtain rfl : x' = .ok (f a) := h
    exact hk a
  | error e =>
    cases e with
    | threw what =>
      obtain rfl : x' = .error (.threw what) := h
      rfl
    | blocked j =>
      intro hj
      obtain rfl := h hj
      rfl

theorem SameWith.ok {f : α → α} {a b : α} (h : b = f a) : SameWith f more (.ok a) (.ok b) := congrArg _ h

/-! ## Parts that only look at the current pulses -/

theorem pulse_modulesWith : ∀ (i : Nat) (ms : List Module), (modulesWith more i ms).map Module.pulse = ms.map Module.pulse
  | _, [] => rfl
  | i, m :: ms => by
    unfold modulesWith
    rw [List.map_cons, List.map_cons, pulse_modulesWith (i + 1) ms]

theorem maxPulseId_modulesWith (i : Nat) (ms : List Module) : maxPulseId (modulesWith more i ms) = maxPulseId ms := by
  have hfold : ∀ ms, maxPulseId ms = (ms.map Module.pulse).foldl max 0 := fun ms => List.foldl_map.symm
  rw [hfold, hfold, pulse_modulesWith]

theorem minPulseId_modulesWith (i : Nat) (ms : List Module) : minPulseId (modulesWith more i ms) = minPulseId ms := by
  have hfold : ∀ ms, minPulseId ms = (ms.map Module.pulse).foldl min (UInt64.ofNat (2 ^ 64 - 1)) :=
    fun ms => List.foldl_map.symm
  rw [hfold, hfold, pulse_modulesWith]

theorem firstPulse_modulesWith (i : Nat) (ms : List Module) : firstPulse (modulesWith more i ms) = firstPulse ms := by
  cases ms <;> rfl

theorem modulesInSync_modulesWith (i : Nat) (ms : List Module) :
    modulesInSync (modulesWith more i ms) = modulesInSync ms := by
  have hall : ∀ ms, modulesInSync ms = (ms.map Module.pulse).all fun p => firstPulse ms == p := by
    intro ms
    rw [List.all_map]
    rfl
  rw [hall, hall, pulse_modulesWith, firstPulse_modulesWith]

theorem map_zip_modulesWith {F : Nat × Module → β}
    (hF : ∀ (k : Nat) (m m' : Module), m.pulse = m'.pulse → F (k, m) = F (k, m')) :
    ∀ (ks : List Nat) (i : Nat) (ms : List Module), (ks.zip (modulesWith more i ms)).map F = (ks.zip ms).map F
  | [], _, _ => rfl
  | _ :: _, _, [] => rfl
  | k :: ks, i, m :: ms => by
    unfold modulesWith
    rw [List.zip_cons_cons, List.zip_cons_cons, List.map_cons, List.map_cons, map_zip_modulesWith hF ks (i + 1) ms]
    congr 1
    exact hF k _ m rfl

/-- The text names the pulses only. -/
theorem offsetLimitError_modulesWith (maxDiff : UInt64) (i : Nat) (ms : List Module) :
    offsetLimitError maxDiff (modulesWith more i ms) = offsetLimitError maxDiff ms := by
  have hpulses : (modulesWith more i ms).map Module.pulse = ms.map Module.pulse := pulse_modulesWith i ms
  have hlength := congrArg List.length hpulses
  rw [List.length_map, List.length_map] at hlength
  unfold offsetLimitError
  rw [hlength, map_zip_modulesWith fun k m m' hpulse => ?_]
  simp only [hpulse]

theorem unread_modulesWith : ∀ (i : Nat) (ms : List Module),
    (modulesWith more i ms).map Module.unread = socketsWith more i (ms.map Module.unread)
  | _, [] => rfl
  | i, m :: ms => by
    unfold modulesWith
    rw [List.map_cons, List.map_cons, unread_modulesWith (i + 1) ms]
    rfl

/-! ## The call -/

theorem recvAll_with : ∀ (i : Nat) (ss : List (List UInt64)),
    SameWith (modulesWith more i) more (recvAll i ss) (recvAll i (socketsWith more i ss))
  | _, [] => rfl
  | i, [] :: ss => by
    intro hj
    unfold socketsWith
    rw [hj]
    rfl
  | i, (p :: s) :: ss => by
    unfold socketsWith recvAll
    exact (recvAll_with (i + 1) ss).bind fun ms => .ok rfl

theorem skipTo_with (top : UInt64) (i : Nat) : ∀ (unread : List UInt64) (p : UInt64) (lost : UInt32),
    SameWith (fun out => (⟨out.1.pulse, out.1.unread ++ more i⟩, out.2)) more (skipTo top i p unread lost)
      (skipTo top i p (unread ++ more i) lost)
  | [], p, lost => by
    by_cases hp : p < top
    · unfold skipTo
      rw [if_pos hp]
      intro hj
      rw [hj, List.append_nil]
      exact if_pos hp
    · have hstop : skipTo top i p ([] ++ more i) lost = .ok (⟨p, [] ++ more i⟩, lost) := by
        cases hmore : [] ++ more i with
        | nil => exact if_neg hp
        | cons q rest => exact if_neg hp
      rw [hstop]
      unfold skipTo
      rw [if_neg hp]
      rfl
  | q :: unread, p, lost => by
    rw [List.cons_append]
    unfold skipTo
    by_cases hp : p < top
    · rw [if_pos hp, if_pos hp]
      exact skipTo_with top i unread q (lost + 1)
    · rw [if_neg hp, if_neg hp]
      rfl

theorem syncRound_with (top : UInt64) : ∀ (i : Nat) (ms : List Module) (lost : UInt32) (inSync : Bool),
    SameWith (fun out => (modulesWith more i out.1, out.2)) more (syncRound top i ms lost inSync)
      (syncRound top i (modulesWith more i ms) lost inSync)
  | _, [], _, _ => rfl
  | i, m :: ms, lost, inSync => by
    unfold modulesWith syncRound
    refine (skipTo_with top i m.unread m.pulse 0).bind fun out => ?_
    exact (syncRound_with top (i + 1) ms (max lost out.2) (inSync && out.1.pulse == top)).bind fun out' => .ok rfl

theorem syncLoop_with : ∀ (n : Nat) (ms : List Module) (nLostPulses : UInt32),
    SameWith (fun out => (out.1, modulesWith more 0 out.2)) more (syncLoop n ms nLostPulses)
      (syncLoop n (modulesWith more 0 ms) nLostPulses)
  | 0, _, _ => rfl
  | n + 1, ms, nLostPulses => by
    unfold syncLoop
    simp only [maxPulseId_modulesWith, minPulseId_modulesWith, offsetLimitError_modulesWith]
    split
    · rfl
    · refine (syncRound_with (maxPulseId ms) 0 ms 0 true).bind fun out => ?_
      obtain ⟨ms', lost, inSync⟩ := out
      simp only
      split
      · exact .ok (by rw [firstPulse_modulesWith])
      · exact syncLoop_with n ms' (nLostPulses + lost)

theorem getNextPulseId_with (ss : List (List UInt64)) :
    SameWith (fun out => (out.1, socketsWith more 0 out.2)) more (getNextPulseId ss)
      (getNextPulseId (socketsWith more 0 ss)) := by
  unfold getNextPulseId
  refine (recvAll_with 0 ss).bind fun ms => ?_
  rw [modulesInSync_modulesWith]
  split
  · exact .ok (by rw [firstPulse_modulesWith, unread_modulesWith])
  · exact (syncLoop_with syncRetryLimit ms 0).bind fun out => .ok (by rw [unread_modulesWith])

theorem socketsWith_range (n : Nat) (unread : Nat → List UInt64) :
    socketsWith more 0 ((List.range n).map unread) = (List.range n).map fun m => unread m ++ more m := by
  have hshift : ∀ (ks : List Nat) (i : Nat), (∀ k (hk : k < ks.length), ks[k] = i + k) →
      socketsWith more i (ks.map unread) = ks.map fun m => unread m ++ more m := by
    intro ks
    induction ks with
    | nil => exact fun _ _ => rfl
    | cons k ks ih =>
      intro i hks
      have hk : k = i := hks 0 (Nat.succ_pos _)
      subst hk
      refine congrArg (_ :: ·) (ih (k + 1) fun j hj => ?_)
      have hnext := hks (j + 1) (Nat.succ_lt_succ hj)
      rw [List.getElem_cons_succ] at hnext
      omega
  exact hshift _ 0 fun k hk => by simp

end

/-- When a call waits for a module that has sent nothing else, the unread messages and those that are on
their way have no pulse_id in common. -/
theorem common_of_blocked {n : Nat} (hn : 0 < n) {unread more : Nat → List UInt64} {j : Nat}
    (hinc : ∀ m < n, (unread m ++ more m).Pairwise (· < ·))
    (h : getNextPulseId ((List.range n).map unread) = .error (.blocked j)) (hj : more j = []) :
    common ((List.range n).map fun m => unread m ++ more m) = [] := by
  have hwith : SameWith (fun out => (out.1, socketsWith more 0 out.2)) more _ _ :=
    getNextPulseId_with ((List.range n).map unread)
  rw [h, socketsWith_range] at hwith
  have hne : (List.range n).map (fun m => unread m ++ more m) ≠ [] := by
    simp only [ne_eq, List.map_eq_nil_iff, List.range_eq_nil]
    omega
  have hspec := getNextPulseId_spec hne (List.forall_mem_map.2 fun m hm => hinc m (List.mem_range.1 hm))
  rw [hwith hj] at hspec
  cases hspec with
  | blocked hnone => exact common_eq_nil hne hnone

end SfDaqBuffer.Assembler

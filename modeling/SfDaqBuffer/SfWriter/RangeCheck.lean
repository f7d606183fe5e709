/-
For which arguments of the constructor the check of the pulse_id range is exact. The step is a
`size_t` that becomes an `int`: a step whose low half is zero divides by zero, and a step that is
accepted after it was narrowed counts the multiples of another number.
-/
import SfDaqBuffer.SfWriter.Range

namespace SfDaqBuffer.SfWriter

/-- The `int` argument of `get_n_pulses_in_range`. -/
def narrowed (pulseIdStep : UInt64) : Int32 := pulseIdStep.toUInt32.toInt32

/-- The `int` step where it meets an unsigned pulse_id. -/
def widened (pulseIdStep : UInt64) : UInt64 := UInt64.ofInt (narrowed pulseIdStep).toInt

/-- The multiples of the step in the range. -/
def multiples (startPulseId stopPulseId pulseIdStep : UInt64) : Finset Nat :=
  (Finset.Icc startPulseId.toNat stopPulseId.toNat).filter (pulseIdStep.toNat ∣ ·)

/-- The ranges that the writer is for. -/
structure ValidRange (startPulseId stopPulseId pulseIdStep : UInt64) : Prop where
  ordered : startPulseId.toNat ≤ stopPulseId.toNat
  positive : 0 < pulseIdStep.toNat
  hundred : pulseIdStep.toNat ∣ 100
  start : pulseIdStep.toNat ∣ startPulseId.toNat
  stop : pulseIdStep.toNat ∣ stopPulseId.toNat
  fits : (multiples startPulseId stopPulseId pulseIdStep).card < 2 ^ 64

/-- The constructor counts the multiples of the step in a valid range, and throws for every other
range. -/
def RangeExact (nModules startPulseId stopPulseId pulseIdStep : UInt64) : Prop :=
  match WriterConfig.new nModules startPulseId stopPulseId pulseIdStep with
  | .ok c => ValidRange startPulseId stopPulseId pulseIdStep ∧
      c.nImages.toNat = (multiples startPulseId stopPulseId pulseIdStep).card
  | .error (.threw _) => ¬ ValidRange startPulseId stopPulseId pulseIdStep
  | .error _ => False

/-- The `int` step is refused: it does not divide 100 or an end of the range, or the count of the
whole range wraps to zero. -/
def StepRefused (startPulseId stopPulseId pulseIdStep : UInt64) : Prop :=
  ¬ (narrowed pulseIdStep).toInt ∣ 100 ∨ startPulseId % widened pulseIdStep ≠ 0 ∨
    stopPulseId % widened pulseIdStep ≠ 0 ∨
    widened pulseIdStep = 1 ∧ startPulseId = 0 ∧ stopPulseId.toNat = 2 ^ 64 - 1

section

variable {nModules startPulseId stopPulseId pulseIdStep : UInt64}

/-- The count wraps to zero for the whole range of pulse_ids only. -/
theorem nPulses_eq_zero_iff {step : UInt64} (h : startPulseId.toNat ≤ stopPulseId.toNat) :
    1 + stopPulseId / step - startPulseId / step = 0 ↔
      step = 1 ∧ startPulseId = 0 ∧ stopPulseId.toNat = 2 ^ 64 - 1 := by
  have hstop := stopPulseId.toNat_lt
  have hdiv : startPulseId.toNat / step.toNat ≤ stopPulseId.toNat / step.toNat := Nat.div_le_div_right h
  have hself := Nat.div_le_self stopPulseId.toNat step.toNat
  have hcount : 1 + stopPulseId / step - startPulseId / step = 0 ↔
      startPulseId.toNat / step.toNat = 0 ∧ stopPulseId.toNat / step.toNat = 2 ^ 64 - 1 := by
    rw [← UInt64.toNat_inj, UInt64.toNat_sub, UInt64.toNat_add, UInt64.toNat_div, UInt64.toNat_div]
    simp only [UInt64.reduceToNat]
    generalize startPulseId.toNat / step.toNat = first at hdiv
    generalize stopPulseId.toNat / step.toNat = last at hdiv hself
    omega
  rw [hcount, ← UInt64.toNat_inj, ← UInt64.toNat_inj]
  simp only [UInt64.reduceToNat]
  constructor
  · rintro ⟨hfirst, hlast⟩
    have hone : step.toNat = 1 := by
      by_contra hne
      rcases Nat.eq_zero_or_pos step.toNat with hz | hpos
      · rw [hz, Nat.div_zero] at hlast
        omega
      · have hhalf : stopPulseId.toNat / step.toNat ≤ stopPulseId.toNat / 2 :=
          Nat.div_le_div_left (by omega) Nat.zero_lt_two
        omega
    rw [hone, Nat.div_one] at hfirst hlast
    exact ⟨hone, hfirst, hlast⟩
  · rintro ⟨hone, hstart, hlast⟩
    rw [hone, hstart, hlast]
    exact ⟨rfl, rfl⟩

/-- What the constructor does with a range whose ends are in order. -/
theorem new_cases (nModules : UInt64) (h : startPulseId.toNat ≤ stopPulseId.toNat) :
    (narrowed pulseIdStep = 0 ∧
      WriterConfig.new nModules startPulseId stopPulseId pulseIdStep = .error .divisionByZero) ∨
    (narrowed pulseIdStep ≠ 0 ∧ StepRefused startPulseId stopPulseId pulseIdStep ∧
      ∃ message, WriterConfig.new nModules startPulseId stopPulseId pulseIdStep = .error (.threw message)) ∨
    (narrowed pulseIdStep ≠ 0 ∧ ¬ StepRefused startPulseId stopPulseId pulseIdStep ∧
      ∃ c, WriterConfig.new nModules startPulseId stopPulseId pulseIdStep = .ok c) := by
  have hlt : ¬ stopPulseId < startPulseId := by
    rw [UInt64.lt_iff_toNat_lt]
    exact Nat.not_lt.2 h
  have hdvd : (100 : Int).tmod (narrowed pulseIdStep).toInt = 0 ↔ (narrowed pulseIdStep).toInt ∣ 100 :=
    (Int.dvd_iff_tmod_eq_zero ..).symm
  have hnew : WriterConfig.new nModules startPulseId stopPulseId pulseIdStep =
      (getNPulsesInRange startPulseId stopPulseId (narrowed pulseIdStep)).map fun nImages =>
        ⟨nModules, startPulseId, stopPulseId, pulseIdStep, nImages, stopPulseId - startPulseId + 1⟩ := rfl
  have hwidened : UInt64.ofInt (narrowed pulseIdStep).toInt = widened pulseIdStep := rfl
  rw [hnew]
  unfold getNPulsesInRange
  rw [if_neg hlt]
  by_cases hzero : narrowed pulseIdStep = 0
  · rw [if_pos hzero]
    exact .inl ⟨hzero, rfl⟩
  rw [if_neg hzero]
  by_cases hhundred : (100 : Int).tmod (narrowed pulseIdStep).toInt ≠ 0
  · rw [if_pos hhundred]
    exact .inr (.inl ⟨hzero, .inl fun h => hhundred (hdvd.2 h), _, rfl⟩)
  rw [if_neg hhundred, hwidened]
  by_cases hstart : startPulseId % widened pulseIdStep ≠ 0
  · rw [if_pos hstart]
    exact .inr (.inl ⟨hzero, .inr (.inl hstart), _, rfl⟩)
  rw [if_neg hstart]
  by_cases hstop : stopPulseId % widened pulseIdStep ≠ 0
  · rw [if_pos hstop]
    exact .inr (.inl ⟨hzero, .inr (.inr (.inl hstop)), _, rfl⟩)
  rw [if_neg hstop]
  by_cases hcount : 1 + stopPulseId / widened pulseIdStep - startPulseId / widened pulseIdStep = 0
  · rw [if_pos hcount]
    exact .inr (.inl ⟨hzero, .inr (.inr (.inr ((nPulses_eq_zero_iff h).1 hcount))), _, rfl⟩)
  · rw [if_neg hcount]
    refine .inr (.inr ⟨hzero, ?_, _, rfl⟩)
    rintro (hnot | hnot | hnot | hnot)
    · exact hnot (hdvd.1 (not_not.1 hhundred))
    · exact hstart hnot
    · exact hstop hnot
    · exact hcount ((nPulses_eq_zero_iff h).2 hnot)

/-- Ends that are out of order are refused. -/
theorem new_of_lt (nModules : UInt64) (h : stopPulseId < startPulseId) :
    WriterConfig.new nModules startPulseId stopPulseId pulseIdStep =
      .error (.threw "stop_pulse_id smaller than start_pulse_id.") := by
  unfold WriterConfig.new getNPulsesInRange
  rw [if_pos h]
  rfl

theorem rangeExact_of_threw {message : String}
    (h : WriterConfig.new nModules startPulseId stopPulseId pulseIdStep = .error (.threw message)) :
    RangeExact nModules startPulseId stopPulseId pulseIdStep ↔
      ¬ ValidRange startPulseId stopPulseId pulseIdStep := by
  unfold RangeExact
  rw [h]

theorem rangeExact_of_ok {c : WriterConfig}
    (h : WriterConfig.new nModules startPulseId stopPulseId pulseIdStep = .ok c) :
    RangeExact nModules startPulseId stopPulseId pulseIdStep ↔
      ValidRange startPulseId stopPulseId pulseIdStep ∧
        c.nImages.toNat = (multiples startPulseId stopPulseId pulseIdStep).card := by
  unfold RangeExact
  rw [h]

/-! ## Steps that divide 100 -/

section

variable (hstep : pulseIdStep.toNat ∣ 100)

include hstep

theorem mod_widened_iff (p : UInt64) : p % widened pulseIdStep = 0 ↔ pulseIdStep.toNat ∣ p.toNat :=
  (stepIs_toInt32 hstep).mod_eq_zero_iff p

theorem card_multiples (h : startPulseId.toNat ≤ stopPulseId.toNat)
    (hstart : pulseIdStep.toNat ∣ startPulseId.toNat) (hstop : pulseIdStep.toNat ∣ stopPulseId.toNat) :
    (multiples startPulseId stopPulseId pulseIdStep).card =
      stopPulseId.toNat / pulseIdStep.toNat - startPulseId.toNat / pulseIdStep.toNat + 1 :=
  have hpos := (stepIs_toInt32 hstep).pos
  (Multiples.card_multiples hpos hstart h).trans (Multiples.below_range hpos hstart hstop)

/-- A step that divides 100 is refused only for a range that is not valid. -/
theorem not_valid_of_refused (hrefused : StepRefused startPulseId stopPulseId pulseIdStep) :
    ¬ ValidRange startPulseId stopPulseId pulseIdStep := by
  rintro hvalid
  rcases hrefused with hnot | hnot | hnot | ⟨hone, hstart, hstop⟩
  · have hint : (narrowed pulseIdStep).toInt = pulseIdStep.toNat := (stepIs_toInt32 hstep).toInt
    apply hnot
    rw [hint]
    exact Int.natCast_dvd_natCast.2 hstep
  · exact hnot ((mod_widened_iff hstep _).2 hvalid.start)
  · exact hnot ((mod_widened_iff hstep _).2 hvalid.stop)
  · have hk : pulseIdStep.toNat = 1 := by
      rw [← (stepIs_toInt32 hstep).toNat_ofInt]
      exact congrArg UInt64.toNat hone
    have hfits := hvalid.fits
    rw [card_multiples hstep hvalid.ordered hvalid.start hvalid.stop, hk, hstart, hstop] at hfits
    simp only [UInt64.reduceToNat] at hfits
    omega

/-- For a step that divides 100 the constructor is exact. -/
theorem rangeExact_of_dvd (nModules : UInt64) (h : startPulseId.toNat ≤ stopPulseId.toNat) :
    RangeExact nModules startPulseId stopPulseId pulseIdStep := by
  rcases new_cases nModules h with ⟨hzero, -⟩ | ⟨-, hrefused, message, hnew⟩ | ⟨-, hrefused, c, hnew⟩
  · exact absurd hzero (stepIs_toInt32 hstep).ne_zero
  · exact (rangeExact_of_threw hnew).2 (not_valid_of_refused hstep hrefused)
  · have hstart : pulseIdStep.toNat ∣ startPulseId.toNat := by
      by_contra hnot
      exact hrefused (.inr (.inl fun hmod => hnot ((mod_widened_iff hstep _).1 hmod)))
    have hstop : pulseIdStep.toNat ∣ stopPulseId.toNat := by
      by_contra hnot
      exact hrefused (.inr (.inr (.inl fun hmod => hnot ((mod_widened_iff hstep _).1 hmod))))
    have hcard := card_multiples hstep h hstart hstop
    have heq := WriterConfig.new_eq nModules hstep h hstart hstop
    rw [hnew, ← hcard] at heq
    split at heq
    · cases heq
    · rename_i hwrap
      have hself := Nat.div_le_self stopPulseId.toNat pulseIdStep.toNat
      have hsub := Nat.sub_le (stopPulseId.toNat / pulseIdStep.toNat) (startPulseId.toNat / pulseIdStep.toNat)
      have hbound := stopPulseId.toNat_lt
      have hfits : (multiples startPulseId stopPulseId pulseIdStep).card < 2 ^ 64 := by omega
      refine (rangeExact_of_ok hnew).2 ⟨⟨h, (stepIs_toInt32 hstep).pos, hstep, hstart, hstop, hfits⟩, ?_⟩
      rw [Except.ok.inj heq, UInt64.toNat_ofNat']
      exact Nat.mod_eq_of_lt hfits

end

/-! ## All steps -/

/-- The constructor is exact when the ends of the range are out of order, and otherwise exactly when
the step is not zero as an `int` and divides 100 itself or is refused as an `int`. -/
theorem rangeExact_iff (nModules startPulseId stopPulseId pulseIdStep : UInt64) :
    RangeExact nModules startPulseId stopPulseId pulseIdStep ↔
      stopPulseId < startPulseId ∨ narrowed pulseIdStep ≠ 0 ∧
        (pulseIdStep.toNat ∣ 100 ∨ StepRefused startPulseId stopPulseId pulseIdStep) := by
  by_cases hlt : stopPulseId < startPulseId
  · have hordered : ¬ startPulseId.toNat ≤ stopPulseId.toNat := Nat.not_le.2 (UInt64.lt_iff_toNat_lt.1 hlt)
    constructor
    · exact fun _ => .inl hlt
    · exact fun _ => (rangeExact_of_threw (new_of_lt nModules hlt)).2 fun hvalid => hordered hvalid.ordered
  · have hle : startPulseId.toNat ≤ stopPulseId.toNat := by
      rw [UInt64.lt_iff_toNat_lt] at hlt
      exact Nat.le_of_not_lt hlt
    rcases new_cases nModules hle with ⟨hzero, hnew⟩ | ⟨hzero, hrefused, message, hnew⟩ | ⟨hzero, hrefused, c, hnew⟩
    · constructor
      · intro hexact
        unfold RangeExact at hexact
        rw [hnew] at hexact
        exact hexact.elim
      · rintro (h | ⟨hnot, -⟩)
        · exact absurd h hlt
        · exact absurd hzero hnot
    · constructor
      · exact fun _ => .inr ⟨hzero, .inr hrefused⟩
      · intro _
        by_cases hstep : pulseIdStep.toNat ∣ 100
        · exact rangeExact_of_dvd hstep nModules hle
        · exact (rangeExact_of_threw hnew).2 fun hvalid => hstep hvalid.hundred
    · constructor
      · exact fun hexact => .inr ⟨hzero, .inl ((rangeExact_of_ok hnew).1 hexact).1.hundred⟩
      · rintro (h | ⟨-, hstep | h⟩)
        · exact absurd h hlt
        · exact rangeExact_of_dvd hstep nModules hle
        · exact absurd h hrefused

/-- A step of zero divides by zero; steps of `2^32 + 10` and `2^64 - 5` are accepted. -/
theorem rangeExact_fails :
    WriterConfig.new 1 0 100 0 = .error .divisionByZero ∧
    WriterConfig.new 1 10 20 4294967306 = .ok ⟨1, 10, 20, 4294967306, 2, 11⟩ ∧
    WriterConfig.new 1 0 0 18446744073709551611 = .ok ⟨1, 0, 0, 18446744073709551611, 1, 1⟩ ∧
    ¬ RangeExact 1 0 100 0 ∧ ¬ RangeExact 1 10 20 4294967306 ∧ ¬ RangeExact 1 0 0 18446744073709551611 := by
  have hzero : WriterConfig.new 1 0 100 0 = .error .divisionByZero := rfl
  have hlarge : WriterConfig.new 1 10 20 4294967306 = .ok ⟨1, 10, 20, 4294967306, 2, 11⟩ := rfl
  have hnegative : WriterConfig.new 1 0 0 18446744073709551611 = .ok ⟨1, 0, 0, 18446744073709551611, 1, 1⟩ := rfl
  have hnot : ∀ {startPulseId stopPulseId pulseIdStep : UInt64}, 100 < pulseIdStep.toNat →
      ¬ ValidRange startPulseId stopPulseId pulseIdStep := fun h hvalid =>
    absurd (Nat.le_of_dvd (by decide) hvalid.hundred) (Nat.not_le.2 h)
  refine ⟨hzero, hlarge, hnegative, fun h => ?_, fun h => ?_, fun h => ?_⟩
  · unfold RangeExact at h
    rw [hzero] at h
    exact h
  · exact hnot (by decide) ((rangeExact_of_ok hlarge).1 h).1
  · exact hnot (by decide) ((rangeExact_of_ok hnegative).1 h).1

end

end SfDaqBuffer.SfWriter

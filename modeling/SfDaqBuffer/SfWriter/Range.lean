/-
The check of the pulse_id range of the offline writer: for a step that divides 100 it accepts the ranges
whose ends are multiples of the step and computes how many multiples they hold. A count of `2^64` wraps
around to "zero pulses".
-/
import SfDaqBuffer.Lib.Multiples
import SfDaqBuffer.SfWriter.JFH5Writer

namespace SfDaqBuffer.SfWriter

/-- The `int` step is the number `k`, one that divides 100. -/
structure StepIs (step : Int32) (k : Nat) : Prop where
  toInt : step.toInt = k
  dvd : k ∣ 100

namespace StepIs

variable {step : Int32} {k : Nat} (h : StepIs step k)

include h

theorem pos : 0 < k := Nat.pos_of_dvd_of_pos h.dvd (by decide)

theorem le : k ≤ 100 := Nat.le_of_dvd (by decide) h.dvd

/-- The step where it meets a pulse_id. -/
theorem toNat_ofInt : (UInt64.ofInt step.toInt).toNat = k := by
  have hle := h.le
  have hnat : ((k : Int) % 2 ^ 64).toNat = k := by omega
  rw [h.toInt]
  unfold UInt64.ofInt
  rw [hnat, UInt64.toNat_ofNat']
  exact Nat.mod_eq_of_lt (by omega)

theorem ne_zero : step ≠ 0 := by
  rintro rfl
  have hzero : (0 : Int) = k := h.toInt
  have hpos := h.pos
  omega

theorem tmod_eq_zero : (100 : Int).tmod step.toInt = 0 := by
  rw [h.toInt]
  exact Int.tmod_eq_zero_of_dvd (Int.natCast_dvd_natCast.2 h.dvd)

theorem mod_eq_zero_iff (p : UInt64) : p % UInt64.ofInt step.toInt = 0 ↔ k ∣ p.toNat := by
  rw [← UInt64.toNat_inj, UInt64.toNat_mod, h.toNat_ofInt, Nat.dvd_iff_mod_eq_zero]
  rfl

/-- The check for such a step. -/
theorem getNPulsesInRange_eq (startPulseId stopPulseId : UInt64) :
    getNPulsesInRange startPulseId stopPulseId step =
      if stopPulseId < startPulseId then .error (.threw "stop_pulse_id smaller than start_pulse_id.")
      else if ¬ k ∣ startPulseId.toNat then .error (.threw "start_pulse_id not divisible by pulse_id_step.")
      else if ¬ k ∣ stopPulseId.toNat then .error (.threw "stop_pulse_id not divisible by pulse_id_step.")
      else if stopPulseId.toNat / k - startPulseId.toNat / k + 1 = 2 ^ 64 then
        .error (.threw "Zero pulses to write in given range.")
      else .ok (UInt64.ofNat (stopPulseId.toNat / k - startPulseId.toNat / k + 1)) := by
  unfold getNPulsesInRange
  simp only [h.ne_zero, h.tmod_eq_zero, h.mod_eq_zero_iff, ne_eq, not_true_eq_false, if_false]
  by_cases hlt : stopPulseId < startPulseId
  · rw [if_pos hlt, if_pos hlt]
  rw [if_neg hlt, if_neg hlt]
  have hdiv : startPulseId.toNat / k ≤ stopPulseId.toNat / k := by
    rw [UInt64.lt_iff_toNat_lt] at hlt
    exact Nat.div_le_div_right (Nat.le_of_not_lt hlt)
  have hself := Nat.div_le_self stopPulseId.toNat k
  have hbound := stopPulseId.toNat_lt
  -- the sum may wrap, the difference then wraps back
  have hn : 1 + stopPulseId / UInt64.ofInt step.toInt - startPulseId / UInt64.ofInt step.toInt =
      UInt64.ofNat (stopPulseId.toNat / k - startPulseId.toNat / k + 1) := by
    apply UInt64.toNat_inj.1
    rw [UInt64.toNat_sub, UInt64.toNat_add, UInt64.toNat_div, UInt64.toNat_div, h.toNat_ofInt, UInt64.toNat_ofNat']
    simp only [UInt64.reduceToNat]
    generalize startPulseId.toNat / k = a at hdiv
    generalize stopPulseId.toNat / k = b at hdiv hself
    omega
  have hzero : UInt64.ofNat (stopPulseId.toNat / k - startPulseId.toNat / k + 1) = 0 ↔
      stopPulseId.toNat / k - startPulseId.toNat / k + 1 = 2 ^ 64 := by
    rw [← UInt64.toNat_inj, UInt64.toNat_ofNat']
    simp only [UInt64.reduceToNat]
    generalize startPulseId.toNat / k = a at hdiv
    generalize stopPulseId.toNat / k = b at hdiv hself
    omega
  rw [hn]
  simp only [hzero]

end StepIs

/-- A `size_t` step that becomes an `int` argument. -/
theorem stepIs_toInt32 {step : UInt64} (h : step.toNat ∣ 100) : StepIs step.toUInt32.toInt32 step.toNat where
  toInt := by
    have hle : step.toNat ≤ 100 := Nat.le_of_dvd (by decide) h
    have hnat : step.toUInt32.toInt32.toBitVec.toNat = step.toNat := by
      show step.toUInt32.toNat = _
      rw [UInt64.toNat_toUInt32]
      omega
    rw [Int32.toInt, BitVec.toInt_eq_toNat_bmod, hnat]
    exact Int.bmod_eq_of_le (by omega) (by omega)
  dvd := h

/-- The constructor on a range whose ends are multiples of the step. -/
theorem WriterConfig.new_eq (nModules : UInt64) {startPulseId stopPulseId pulseIdStep : UInt64}
    (hstep : pulseIdStep.toNat ∣ 100) (hle : startPulseId.toNat ≤ stopPulseId.toNat)
    (hstart : pulseIdStep.toNat ∣ startPulseId.toNat) (hstop : pulseIdStep.toNat ∣ stopPulseId.toNat) :
    WriterConfig.new nModules startPulseId stopPulseId pulseIdStep =
      if stopPulseId.toNat / pulseIdStep.toNat - startPulseId.toNat / pulseIdStep.toNat + 1 = 2 ^ 64 then
        .error (.threw "Zero pulses to write in given range.")
      else .ok ⟨nModules, startPulseId, stopPulseId, pulseIdStep,
        UInt64.ofNat (stopPulseId.toNat / pulseIdStep.toNat - startPulseId.toNat / pulseIdStep.toNat + 1),
        stopPulseId - startPulseId + 1⟩ := by
  have hrange := (stepIs_toInt32 hstep).getNPulsesInRange_eq startPulseId stopPulseId
  rw [if_neg (by rw [UInt64.lt_iff_toNat_lt]; exact Nat.not_lt.2 hle), if_neg (not_not.2 hstart),
    if_neg (not_not.2 hstop)] at hrange
  unfold WriterConfig.new
  rw [hrange]
  split <;> rfl

end SfDaqBuffer.SfWriter

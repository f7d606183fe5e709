/-
What `sf_writer` does before it reads and writes: the requested pulse_ids are rounded to multiples of the
step, and the writer is constructed for the rounded range. The end of the range is rounded by the
remainder of its start.
-/
import SfDaqBuffer.SfWriter.Range

namespace SfDaqBuffer.SfWriter

open Multiples

/-! ## The program -/

/-- `start_pulse_id` rounded up, `stop_pulse_id` as the program rounds it. -/
def alignRange (startPulseId stopPulseId : UInt64) (pulseIdStep : Int32) : Except Fault (UInt64 × UInt64) :=
  -- the `int` is converted where it meets a pulse_id
  let step := UInt64.ofInt pulseIdStep.toInt
  if pulseIdStep = 0 then .error .divisionByZero
  else
    let startPulseId :=
      if startPulseId % step ≠ 0 then startPulseId + (step - startPulseId % step) else startPulseId
    let stopPulseId := if stopPulseId % step ≠ 0 then stopPulseId - startPulseId % step else stopPulseId
    .ok (startPulseId, stopPulseId)

/-- The `module_name` of a reading thread. -/
def moduleName (iModule : Nat) : String :=
  let moduleName := "M"
  let moduleName := if iModule < 10 then moduleName ++ "0" else moduleName
  moduleName ++ toString iModule

/-- The arguments of the program up to the constructor of the writer. -/
def writerOf (nModules startPulseId stopPulseId : UInt64) (pulseIdStep : Int32) : Except Fault WriterConfig := do
  let (startPulseId, stopPulseId) ← alignRange startPulseId stopPulseId pulseIdStep
  WriterConfig.new nModules startPulseId stopPulseId (UInt64.ofInt pulseIdStep.toInt)

/-! ## The rounded range -/

section

variable {step : Int32} {k : Nat} (h : StepIs step k) {startPulseId stopPulseId : UInt64}

include h

/-- The start is rounded up when a multiple follows it, the stop is left as it is. -/
theorem StepIs.alignRange_eq (hmul : ∃ m, k ∣ m ∧ startPulseId.toNat ≤ m ∧ m ≤ stopPulseId.toNat) :
    ∃ start' : UInt64, start'.toNat = up k startPulseId.toNat ∧
      alignRange startPulseId stopPulseId step = .ok (start', stopPulseId) := by
  obtain ⟨⟨hdvd, hle⟩, hleast⟩ := isLeast_up h.pos startPulseId.toNat
  obtain ⟨m, hm, hstart, hstop⟩ := hmul
  have hfits := (hleast ⟨hm, hstart⟩).trans_lt (hstop.trans_lt stopPulseId.toNat_lt)
  have hstart' : (if startPulseId % UInt64.ofInt step.toInt ≠ 0 then
      startPulseId + (UInt64.ofInt step.toInt - startPulseId % UInt64.ofInt step.toInt) else startPulseId).toNat =
      up k startPulseId.toNat := by
    unfold up at hfits ⊢
    by_cases h0 : startPulseId.toNat % k = 0
    · have hmod := (h.mod_eq_zero_iff startPulseId).2 (Nat.dvd_of_mod_eq_zero h0)
      rw [if_neg (not_not.2 hmod), if_pos h0]
    · have hmod : startPulseId % UInt64.ofInt step.toInt ≠ 0 := fun hmod =>
        h0 (Nat.mod_eq_zero_of_dvd ((h.mod_eq_zero_iff startPulseId).1 hmod))
      have hsub : (UInt64.ofInt step.toInt - startPulseId % UInt64.ofInt step.toInt).toNat = k - startPulseId.toNat % k := by
        have hrem := (Nat.mod_lt startPulseId.toNat h.pos).le
        rw [UInt64.toNat_sub_of_le, UInt64.toNat_mod, h.toNat_ofInt]
        rw [UInt64.le_iff_toNat_le, UInt64.toNat_mod, h.toNat_ofInt]
        exact hrem
      rw [if_neg h0] at hfits
      rw [if_pos hmod, if_neg h0, UInt64.toNat_add, hsub]
      exact Nat.mod_eq_of_lt hfits
  unfold alignRange
  simp only [h.ne_zero, if_false]
  generalize (if startPulseId % UInt64.ofInt step.toInt ≠ 0 then
    startPulseId + (UInt64.ofInt step.toInt - startPulseId % UInt64.ofInt step.toInt) else startPulseId) = start' at hstart' ⊢
  -- the rounded start has no remainder to take from the stop
  have hrem : start' % UInt64.ofInt step.toInt = 0 := (h.mod_eq_zero_iff start').2 (hstart' ▸ hdvd)
  refine ⟨start', hstart', ?_⟩
  rw [hrem, UInt64.sub_zero, ite_self]

/-- The constructor on the rounded range. -/
theorem StepIs.writerOf_eq (nModules : UInt64) (hstop : k ∣ stopPulseId.toNat)
    (hmul : ∃ m, k ∣ m ∧ startPulseId.toNat ≤ m ∧ m ≤ stopPulseId.toNat) :
    ∃ start' : UInt64, start'.toNat = up k startPulseId.toNat ∧
      alignRange startPulseId stopPulseId step = .ok (start', stopPulseId) ∧
      writerOf nModules startPulseId stopPulseId step =
        if stopPulseId.toNat / k - up k startPulseId.toNat / k + 1 = 2 ^ 64 then
          .error (.threw "Zero pulses to write in given range.")
        else .ok ⟨nModules, start', stopPulseId, UInt64.ofInt step.toInt,
          UInt64.ofNat (stopPulseId.toNat / k - up k startPulseId.toNat / k + 1), stopPulseId - start' + 1⟩ := by
  obtain ⟨start', hstart', halign⟩ := h.alignRange_eq hmul
  obtain ⟨⟨hdvd, -⟩, hleast⟩ := isLeast_up h.pos startPulseId.toNat
  obtain ⟨m, hm, hstart, hle⟩ := hmul
  have hk := h.toNat_ofInt
  have hle' : start'.toNat ≤ stopPulseId.toNat := hstart' ▸ (hleast ⟨hm, hstart⟩).trans hle
  have hnew := WriterConfig.new_eq nModules (hk ▸ h.dvd) hle' (hk ▸ hstart' ▸ hdvd) (hk ▸ hstop)
  rw [hk, hstart'] at hnew
  refine ⟨start', hstart', halign, ?_⟩
  unfold writerOf
  rw [halign]
  exact hnew

end

/-! ## The requested range -/

/-- The range is rounded to the multiples of the step inside it, and the writer is constructed for them. -/
def WritesRequested (nModules startPulseId stopPulseId : UInt64) (pulseIdStep : Int32) (k : Nat) : Prop :=
  ∃ start' stop' c, alignRange startPulseId stopPulseId pulseIdStep = .ok (start', stop') ∧
    IsLeast {m | k ∣ m ∧ startPulseId.toNat ≤ m} start'.toNat ∧
    IsGreatest {m | k ∣ m ∧ m ≤ stopPulseId.toNat} stop'.toNat ∧
    writerOf nModules startPulseId stopPulseId pulseIdStep = .ok c ∧
    c.startPulseId = start' ∧ c.stopPulseId = stop' ∧
    c.nImages.toNat = ((Finset.Icc startPulseId.toNat stopPulseId.toNat).filter (k ∣ ·)).card

/-- Only the range of all pulse_ids has `2^64` multiples. -/
theorem count_fits_iff {k start stop : Nat} (hk : 0 < k) (hle : up k start ≤ stop) (hstop : stop < 2 ^ 64) :
    stop / k - up k start / k + 1 = 2 ^ 64 ↔ k = 1 ∧ start = 0 ∧ stop = 2 ^ 64 - 1 := by
  constructor
  · intro hcount
    have hsub := Nat.sub_le (stop / k) (up k start / k)
    have hquot : 2 ^ 64 - 1 ≤ stop / k := by omega
    have hmul := (Nat.le_div_iff_mul_le hk).1 hquot
    have hone : k = 1 := by
      by_contra hne
      have htwo : (2 ^ 64 - 1) * 2 ≤ (2 ^ 64 - 1) * k := Nat.mul_le_mul_left _ (by omega)
      omega
    subst hone
    have hup : up 1 start = start := if_pos (Nat.mod_one start)
    rw [Nat.div_one, Nat.div_one, hup] at hcount
    exact ⟨rfl, by omega, by omega⟩
  · rintro ⟨rfl, rfl, rfl⟩
    have hup : up 1 0 = 0 := rfl
    rw [hup, Nat.div_one, Nat.zero_div, Nat.sub_zero]
    exact Nat.sub_add_cancel Nat.one_le_two_pow

/-- A request that holds a multiple of the step is served exactly when it ends at a multiple of the step,
and is not that for all pulse_ids. -/
theorem writesRequested_iff (nModules startPulseId stopPulseId : UInt64) {pulseIdStep : Int32} {k : Nat}
    (hstep : pulseIdStep.toInt = k) (hdvd : k ∣ 100)
    (hmul : ∃ m, k ∣ m ∧ startPulseId.toNat ≤ m ∧ m ≤ stopPulseId.toNat) :
    WritesRequested nModules startPulseId stopPulseId pulseIdStep k ↔
      k ∣ stopPulseId.toNat ∧ ¬ (k = 1 ∧ startPulseId.toNat = 0 ∧ stopPulseId.toNat = 2 ^ 64 - 1) := by
  have h : StepIs pulseIdStep k := ⟨hstep, hdvd⟩
  have hleast := isLeast_up h.pos startPulseId.toNat
  have hle : up k startPulseId.toNat ≤ stopPulseId.toNat := by
    obtain ⟨m, hm, hstart, hstop⟩ := hmul
    exact (hleast.2 ⟨hm, hstart⟩).trans hstop
  rw [← count_fits_iff h.pos hle stopPulseId.toNat_lt]
  constructor
  · rintro ⟨start', stop', c, halign, -, hgreatest, hwriter, -, -, -⟩
    obtain ⟨_, -, halign'⟩ := h.alignRange_eq hmul
    obtain ⟨-, rfl⟩ := Prod.mk.inj (Except.ok.inj (halign.symm.trans halign'))
    have hstop := hgreatest.1.1
    refine ⟨hstop, fun hcount => ?_⟩
    obtain ⟨_, -, -, hwriter'⟩ := h.writerOf_eq nModules hstop hmul
    rw [hwriter', if_pos hcount] at hwriter
    cases hwriter
  · rintro ⟨hstop, hcount⟩
    obtain ⟨start', hstart', halign, hwriter⟩ := h.writerOf_eq nModules hstop hmul
    rw [if_neg hcount] at hwriter
    refine ⟨start', stopPulseId, _, halign, hstart' ▸ hleast, ⟨⟨hstop, le_rfl⟩, fun m hm => hm.2⟩, hwriter, rfl, rfl, ?_⟩
    rw [filter_up h.pos, card_multiples h.pos hleast.1.1 hle, below_range h.pos hleast.1.1 hstop]
    show (UInt64.ofNat _).toNat = _
    rw [UInt64.toNat_ofNat']
    apply Nat.mod_eq_of_lt
    have hself := Nat.div_le_self stopPulseId.toNat k
    have hsub := Nat.sub_le (stopPulseId.toNat / k) (up k startPulseId.toNat / k)
    have hbound := (Nat.succ_le_succ (hsub.trans hself)).trans (Nat.succ_le_of_lt stopPulseId.toNat_lt)
    exact lt_of_le_of_ne hbound hcount

/-- Every tenth pulse from 5 to 30. -/
theorem writesRequested_iff_three : WritesRequested 1 5 30 10 10 :=
  (writesRequested_iff 1 5 30 rfl (by decide) ⟨10, by decide⟩).2 (by decide)

/-- Every tenth pulse from 5 to 25: the stop stays at 25, and the constructor throws. -/
theorem stop_not_aligned : alignRange 5 25 10 = .ok (10, 25) ∧
    writerOf 1 5 25 10 = .error (.threw "stop_pulse_id not divisible by pulse_id_step.") ∧
    ¬ WritesRequested 1 5 25 10 10 := by
  have halign : alignRange 5 25 10 = .ok (10, 25) := rfl
  have hwriter : writerOf 1 5 25 10 = .error (.threw "stop_pulse_id not divisible by pulse_id_step.") := rfl
  refine ⟨halign, hwriter, ?_⟩
  rintro ⟨start', stop', c, -, -, -, hok, -⟩
  rw [hwriter] at hok
  cases hok

end SfDaqBuffer.SfWriter

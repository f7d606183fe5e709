/-
Multiples of a step in a range: the first one, how many there are below a position of a range that
starts at a multiple, and which of them is at a position.
-/
import Mathlib.Tactic
import Mathlib.Data.Nat.Count

namespace SfDaqBuffer.Multiples

/-- The number of multiples of `step` below `n`. -/
def below (step n : Nat) : Nat := Nat.count (step ∣ ·) n

@[simp] theorem below_zero (step : Nat) : below step 0 = 0 := Nat.count_zero _

theorem below_succ_of_dvd {step n : Nat} (h : step ∣ n) : below step (n + 1) = below step n + 1 := by
  unfold below
  rw [Nat.count_succ, if_pos h]

theorem below_succ_of_not_dvd {step n : Nat} (h : ¬ step ∣ n) : below step (n + 1) = below step n := by
  unfold below
  rw [Nat.count_succ, if_neg h, Nat.add_zero]

theorem eq_of_dvd_of_lt {step n m : Nat} (hn : step ∣ n) (hm : step ∣ m) (hle : n ≤ m) (hlt : m < n + step) :
    m = n := by
  have hdvd : step ∣ m - n := Nat.dvd_sub hm hn
  have hzero := Nat.eq_zero_of_dvd_of_lt hdvd (by omega)
  omega

/-- The first multiple that is not below `n` is less than a step away from `n`. -/
theorem below_mul {step : Nat} (hstep : 0 < step) : ∀ n,
    n ≤ below step n * step ∧ below step n * step < n + step
  | 0 => by simp [hstep]
  | n + 1 => by
    obtain ⟨hle, hlt⟩ := below_mul hstep n
    by_cases h : step ∣ n
    · have heq := eq_of_dvd_of_lt h (Nat.dvd_mul_left step (below step n)) hle hlt
      rw [below_succ_of_dvd h, Nat.succ_mul]
      omega
    · have hne : n ≠ below step n * step := fun heq => h ⟨below step n, heq.trans (Nat.mul_comm _ _)⟩
      rw [below_succ_of_not_dvd h]
      omega

/-- The multiple at a position is the one with its number. -/
theorem below_mul_of_dvd {step n : Nat} (hstep : 0 < step) (h : step ∣ n) : below step n * step = n := by
  obtain ⟨hle, hlt⟩ := below_mul hstep n
  exact eq_of_dvd_of_lt h (Nat.dvd_mul_left step _) hle hlt

/-- The numbers of the multiples below `n` are those whose multiple is below `n`. -/
theorem lt_below_iff {step n k : Nat} (hstep : 0 < step) : k < below step n ↔ k * step < n := by
  obtain ⟨hle, hlt⟩ := below_mul hstep n
  constructor
  · intro hk
    have hmul : (k + 1) * step ≤ below step n * step := Nat.mul_le_mul_right step hk
    rw [Nat.succ_mul] at hmul
    omega
  · intro hk
    by_contra hge
    have hmul : below step n * step ≤ k * step := Nat.mul_le_mul_right step (Nat.le_of_not_lt hge)
    omega

/-- The number of multiples in a range whose ends are multiples. -/
theorem below_range {step start stop : Nat} (hstep : 0 < step) (hstart : step ∣ start) (hstop : step ∣ stop) :
    below step (stop - start + 1) = stop / step - start / step + 1 := by
  have hdvd : step ∣ stop - start := Nat.dvd_sub hstop hstart
  rw [below_succ_of_dvd hdvd]
  congr 1
  apply Nat.eq_of_mul_eq_mul_right hstep
  rw [below_mul_of_dvd hstep hdvd, Nat.sub_mul, Nat.div_mul_cancel hstop, Nat.div_mul_cancel hstart]

theorem card_multiples {step start stop : Nat} (hstep : 0 < step) (hstart : step ∣ start) (hle : start ≤ stop) :
    ((Finset.Icc start stop).filter (step ∣ ·)).card = below step (stop - start + 1) := by
  have himage : (Finset.Icc start stop).filter (step ∣ ·) =
      (Finset.range (below step (stop - start + 1))).image fun k => start + k * step := by
    ext p
    simp only [Finset.mem_filter, Finset.mem_Icc, Finset.mem_image, Finset.mem_range, lt_below_iff hstep]
    constructor
    · rintro ⟨⟨h1, h2⟩, hp⟩
      have hdvd : step ∣ p - start := Nat.dvd_sub hp hstart
      have hk := Nat.div_mul_cancel hdvd
      exact ⟨(p - start) / step, by omega, by omega⟩
    · rintro ⟨k, hk, rfl⟩
      exact ⟨by omega, Nat.dvd_add hstart (Nat.dvd_mul_left step k)⟩
  have hinj : Function.Injective fun k => start + k * step := fun a b h =>
    Nat.eq_of_mul_eq_mul_right hstep (Nat.add_left_cancel h)
  rw [himage, Finset.card_image_of_injective _ hinj, Finset.card_range]

/-! ## The first multiple -/

/-- The first multiple of `step` that is not below `n`. -/
def up (step n : Nat) : Nat := if n % step = 0 then n else n + (step - n % step)

theorem isLeast_up {step : Nat} (hstep : 0 < step) (n : Nat) : IsLeast {m | step ∣ m ∧ n ≤ m} (up step n) := by
  have hdiv := Nat.div_add_mod n step
  have hlt := Nat.mod_lt n hstep
  unfold up
  split
  · rename_i h0
    exact ⟨⟨Nat.dvd_of_mod_eq_zero h0, le_rfl⟩, fun m hm => hm.2⟩
  · rename_i h0
    have hup : n + (step - n % step) = step * (n / step + 1) := by
      rw [Nat.mul_succ]
      omega
    constructor
    · exact ⟨⟨n / step + 1, hup⟩, Nat.le_add_right ..⟩
    · rintro m ⟨⟨q, rfl⟩, hle⟩
      rw [hup]
      apply Nat.mul_le_mul_left
      -- a smaller factor gives a multiple below `n`
      by_contra hq
      have hmul : step * q ≤ step * (n / step) := Nat.mul_le_mul_left step (by omega)
      omega

/-- The multiples of a range are those of the range from its first multiple on. -/
theorem filter_up {step : Nat} (hstep : 0 < step) (start stop : Nat) :
    (Finset.Icc start stop).filter (step ∣ ·) = (Finset.Icc (up step start) stop).filter (step ∣ ·) := by
  obtain ⟨⟨-, hle⟩, hleast⟩ := isLeast_up hstep start
  ext m
  simp only [Finset.mem_filter, Finset.mem_Icc]
  constructor
  · rintro ⟨⟨h1, h2⟩, hm⟩
    exact ⟨⟨hleast ⟨hm, h1⟩, h2⟩, hm⟩
  · rintro ⟨⟨h1, h2⟩, hm⟩
    exact ⟨⟨hle.trans h1, h2⟩, hm⟩

end SfDaqBuffer.Multiples

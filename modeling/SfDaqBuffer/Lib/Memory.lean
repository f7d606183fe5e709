/-
Addressed memory: ranges of cells read and written at an offset, the laws of overlapping and
disjoint ranges, and regions of a fixed size whose accesses fail when they leave the region.
-/
import Mathlib.Tactic

namespace SfDaqBuffer.Memory

variable {α : Type*}

/-! ## Ranges -/

/-- The memory after the cells `off, …, off + n - 1` received `src`. -/
def write (m : Nat → α) (off : Nat) {n : Nat} (src : Fin n → α) : Nat → α :=
  fun a => if h : off ≤ a ∧ a < off + n then src ⟨a - off, by omega⟩ else m a

/-- The `n` cells from `off` on. -/
def read (m : Nat → α) (off n : Nat) : Fin n → α := fun j => m (off + j)

theorem write_inside (m : Nat → α) (off : Nat) {n : Nat} (src : Fin n → α) (j : Fin n) :
    write m off src (off + j) = src j := by
  have h : off ≤ off + (j : Nat) ∧ off + (j : Nat) < off + n := ⟨by omega, by omega⟩
  unfold write
  rw [dif_pos h]
  congr 1
  exact Fin.ext (by simp)

theorem write_outside (m : Nat → α) (off : Nat) {n : Nat} (src : Fin n → α) {a : Nat}
    (h : a < off ∨ off + n ≤ a) : write m off src a = m a := by
  unfold write
  rw [dif_neg (by omega)]

/-- What was written is read back. -/
@[simp] theorem read_write_same (m : Nat → α) (off : Nat) {n : Nat} (src : Fin n → α) :
    read (write m off src) off n = src :=
  funext fun j => write_inside m off src j

/-- A write does not reach a range that ends before it or starts after it. -/
theorem read_write_disjoint (m : Nat → α) (off : Nat) {n : Nat} (src : Fin n → α) {off' n' : Nat}
    (h : off' + n' ≤ off ∨ off + n ≤ off') : read (write m off src) off' n' = read m off' n' :=
  funext fun j => write_outside m off src (by omega)

/-- A range of a memory whose cells all hold `c`. -/
theorem read_const (c : α) (off n : Nat) : read (fun _ => c) off n = fun _ => c := rfl

theorem read_congr {m m' : Nat → α} {off n : Nat} (h : ∀ a, off ≤ a → a < off + n → m a = m' a) :
    read m off n = read m' off n :=
  funext fun j => h _ (by omega) (by omega)

/-- A range inside a longer range that was read. -/
theorem read_read (m : Nat → α) (off n : Nat) {off' n' : Nat} (h : off' + n' ≤ n) (j : Fin n') :
    read m off n ⟨off' + j, by omega⟩ = read m (off + off') n' j := by
  simp only [read, Nat.add_assoc]

/-! ## Cells of equal size -/

/-- Two distinct cells of an array of cells of `n` bytes do not overlap. -/
theorem cells_disjoint {i j n : Nat} (h : i ≠ j) : i * n + n ≤ j * n ∨ j * n + n ≤ i * n := by
  rcases Nat.lt_or_gt_of_ne h with h | h
  · exact .inl (by rw [← Nat.succ_mul]; exact Nat.mul_le_mul_right n h)
  · exact .inr (by rw [← Nat.succ_mul]; exact Nat.mul_le_mul_right n h)

/-- A cell of an array of `k` cells of `n` bytes lies inside the array. -/
theorem cell_within {i k n : Nat} (h : i < k) : i * n + n ≤ k * n := by
  rw [← Nat.succ_mul]; exact Nat.mul_le_mul_right n h

/-- A byte of a cell of a range of cells that was read. -/
theorem read_cell (m : Nat → α) (k i n size : Nat) (j : Fin n) (h : i * n + (j : Nat) < size) :
    read m (k * n) size ⟨i * n + j, h⟩ = read m ((k + i) * n) n j := by
  unfold read
  rw [Nat.add_mul, Nat.add_assoc]

/-- The bytes of an array are those of its cells. -/
theorem forall_cells {c n : Nat} {P : Nat → Prop} :
    (∀ a < c * n, P a) ↔ ∀ i < c, ∀ j < n, P (i * n + j) := by
  constructor
  · intro h i hi j hj
    have hle := cell_within (n := n) hi
    exact h _ (by omega)
  · intro h a ha
    have hn : 0 < n := by
      rcases Nat.eq_zero_or_pos n with rfl | hn
      · rw [Nat.mul_zero] at ha
        omega
      · exact hn
    have hrow : a / n < c := Nat.div_lt_of_lt_mul (by rw [Nat.mul_comm]; exact ha)
    have hcell := h (a / n) hrow (a % n) (Nat.mod_lt _ hn)
    rwa [Nat.div_add_mod'] at hcell

/-- Row-major numbering of `rows × cols` cells stays below their number. -/
theorem rowMajor_lt {row col rows cols : Nat} (hr : row < rows) (hc : col < cols) :
    cols * row + col < cols * rows := by
  calc cols * row + col < cols * row + cols := by omega
    _ = cols * (row + 1) := by ring
    _ ≤ cols * rows := Nat.mul_le_mul_left cols hr

/-- Row-major numbering is injective. -/
theorem rowMajor_inj {row row' col col' cols : Nat} (hc : col < cols) (hc' : col' < cols)
    (h : cols * row + col = cols * row' + col') : row = row' ∧ col = col' := by
  have hpos : 0 < cols := by omega
  have hrow : row = row' := by
    have := congrArg (· / cols) h
    simpa [Nat.mul_add_div hpos, Nat.div_eq_of_lt hc, Nat.div_eq_of_lt hc'] using this
  subst hrow
  exact ⟨rfl, by omega⟩

/-! ## Regions -/

/-- A memory region of `size` cells; cells from `size` on do not belong to it. -/
structure Region (α : Type*) (size : Nat) where
  cell : Nat → α

namespace Region

variable {size : Nat}

/-- Writes `src` at `off`; fails when the range leaves the region. -/
def store (r : Region α size) (off : Nat) {n : Nat} (src : Fin n → α) : Option (Region α size) :=
  if off + n ≤ size then some ⟨write r.cell off src⟩ else none

/-- Reads `n` cells at `off`; fails when the range leaves the region. -/
def load (r : Region α size) (off n : Nat) : Option (Fin n → α) :=
  if off + n ≤ size then some (read r.cell off n) else none

theorem store_eq_some (r : Region α size) {off n : Nat} (src : Fin n → α) (h : off + n ≤ size) :
    r.store off src = some ⟨write r.cell off src⟩ := if_pos h

theorem cell_of_store {r r' : Region α size} {off n : Nat} {src : Fin n → α} (h : r.store off src = some r') :
    r'.cell = write r.cell off src := by
  unfold store at h
  split at h
  · obtain rfl := Option.some.inj h
    rfl
  · cases h

theorem load_eq_some (r : Region α size) {off n : Nat} (h : off + n ≤ size) :
    r.load off n = some (read r.cell off n) := if_pos h

end Region

end SfDaqBuffer.Memory
